import AtlasNet.ByteStream
import AtlasNet.Foundation.Rewriting
import AtlasNet.Foundation.Streams
import Mathlib.Data.List.TakeWhile
import Mathlib.Data.List.Infix
import Mathlib.Data.List.Chain

/-! The expansion of macros in a text, which is repeated until no reference to a macro is left. -/
namespace AtlasNet
open Foundation Foundation.Rewriting

namespace Macros

def dollar : UInt8 := 36
def opening : UInt8 := 123
def closing : UInt8 := 125

def reference (key : Bytes) : Bytes := dollar::opening::(key ++ [closing])

/-- What `\$\{([^}]+)\}` captures at the front of a text, if it matches there. -/
def macroPattern : Bytes → Option Bytes
  | first::second::rest =>
    let key := rest.takeWhile (· ≠ closing)
    if first = dollar ∧ second = opening ∧ key ≠ [] ∧ key.length < rest.length then some key else none
  | _ => none

/-- A character between the matches of the iterator, or a match with its key. -/
inductive Piece
  | char (c : UInt8)
  | reference (key : Bytes)
deriving DecidableEq

/-- The walk of `std::sregex_iterator`, past the characters of the last match. -/
def walk : Nat → Bytes → List Piece
  | _,[] => []
  | skip+1,_::rest => walk skip rest
  | 0,c::rest => match macroPattern (c::rest) with
    | some key => .reference key::walk (key.length+2) rest
    | none => .char c::walk 0 rest

def pieces (input : Bytes) : List Piece := walk 0 input

def references (input : Bytes) : List Bytes := (pieces input).filterMap fun
  | .char _ => none
  | .reference key => some key

section Parse
variable (macros : Bytes → Option Bytes)

/-- What is appended to the result for a piece of the input. -/
def substitute : Piece → Bytes
  | .char c => [c]
  | .reference key => match macros key with
    | some value => value
    | none => reference key

def substituted (input : Bytes) : Bytes := (pieces input).flatMap (substitute macros)

def needsReparse (result : Bytes) : Bool := (references result).any fun key => (macros key).isSome

/-- `none` when the given depth of recursion is not enough. -/
def MacroParse : Nat → Bytes → Option Bytes
  | 0,_ => none
  | depth+1,input =>
    let result := substituted macros input
    if needsReparse macros result then MacroParse depth result else some result

/-- The pieces of the input stand in the result in their order: characters and references to
unknown keys as they are, and something for each other reference. -/
def Keeps : List Piece → Bytes → Prop
  | [],result => result = []
  | .char c::pieces,result => ∃ rest, result = c::rest ∧ Keeps pieces rest
  | .reference key::pieces,result => ∃ value rest, result = value ++ rest ∧ (macros key = none → value = reference key) ∧
      Keeps pieces rest

/-- No match of the iterator is left whose key is known. -/
def Scanned (result : Bytes) : Prop := ∀ key ∈ references result, macros key = none

/-- The parse ends with a fully expanded result, which keeps the rest of the input. -/
def Parses (expanded : Bytes → Prop) (input : Bytes) : Prop :=
  ∃ depth result, MacroParse macros depth input = some result ∧ expanded result ∧ Keeps macros (pieces input) result

end Parse

section Scan

/-- What a reference can have as its key: `[^}]+`. -/
def Valid (key : Bytes) : Prop := key ≠ [] ∧ closing ∉ key

theorem takeWhile_key {key : Bytes} (clean : closing ∉ key) (rest : Bytes) :
    (key ++ closing::rest).takeWhile (· ≠ closing) = key := by
  have all : ∀ c ∈ key, decide (c ≠ closing) = true := fun c member => decide_eq_true fun same => clean (same ▸ member)
  rw [List.takeWhile_append_of_pos all,List.takeWhile_cons_of_neg (by simp),List.append_nil]

theorem macroPattern_reference {key : Bytes} (valid : Valid key) (rest : Bytes) : macroPattern (reference key ++ rest) = some key := by
  have text : reference key ++ rest = dollar::opening::(key ++ closing::rest) := by simp [reference]
  rw [text,macroPattern,takeWhile_key valid.2]
  refine if_pos ⟨rfl,rfl,valid.1,?_⟩
  rw [List.length_append,List.length_cons]
  omega

theorem macroPattern_some {input key : Bytes} (found : macroPattern input = some key) :
    Valid key ∧ ∃ rest, input = reference key ++ rest := by
  match input with
  | [] => cases found
  | [_] => cases found
  | first::second::rest =>
    rw [macroPattern] at found
    split at found
    · rename_i holds
      obtain ⟨rfl,rfl,some,long⟩ := holds
      obtain rfl := Option.some.inj found
      have clean : closing ∉ rest.takeWhile (· ≠ closing) := fun member => by
        simpa using List.mem_takeWhile_imp member
      refine ⟨⟨some,clean⟩,?_⟩
      have whole := List.takeWhile_append_dropWhile (p := fun c => decide (c ≠ closing)) (l := rest)
      cases left : rest.dropWhile (· ≠ closing) with
      | nil =>
        rw [left,List.append_nil] at whole
        rw [whole] at long
        exact absurd long (lt_irrefl _)
      | cons c after =>
        have ends : c = closing := by
          have head := List.head?_dropWhile_not (fun c => decide (c ≠ closing)) rest
          rw [left] at head
          simpa using head
        refine ⟨after,?_⟩
        rw [left,ends] at whole
        simp only [reference,List.cons_append,List.append_assoc,List.nil_append]
        rw [whole]
    · cases found

theorem walk_skip (skip : Nat) (input : Bytes) : walk skip input = pieces (input.drop skip) := by
  induction input generalizing skip with
  | nil =>
    rw [List.drop_nil]
    cases skip <;> rfl
  | cons c rest ih =>
    cases skip with
    | zero => rfl
    | succ skip => exact ih skip

theorem pieces_char {c : UInt8} {rest : Bytes} (none : macroPattern (c::rest) = none) : pieces (c::rest) = .char c::pieces rest := by
  rw [pieces,walk,none]
  rfl

theorem pieces_reference {key : Bytes} (valid : Valid key) (rest : Bytes) :
    pieces (reference key ++ rest) = .reference key::pieces rest := by
  have found := macroPattern_reference valid rest
  rw [reference,List.cons_append,List.cons_append] at found ⊢
  have past : (opening::(key ++ [closing] ++ rest)).drop (key.length+2) = rest := by
    have long : key.length+2 = (opening::(key ++ [closing])).length := by simp
    rw [long,← List.cons_append]
    exact List.drop_left
  have skipped := walk_skip (key.length+2) (opening::(key ++ [closing] ++ rest))
  rw [past] at skipped
  rw [pieces,walk,found]
  exact congrArg _ skipped

/-- A text is empty, begins with a character that is outside all matches, or begins with a match. -/
theorem pieces_induction {property : Bytes → Prop} (nil : property [])
    (char : ∀ c rest, macroPattern (c::rest) = none → property rest → property (c::rest))
    (match_ : ∀ key rest, Valid key → property rest → property (reference key ++ rest)) (input : Bytes) : property input := by
  induction long : input.length using Nat.strong_induction_on generalizing input with
  | _ n ih =>
    cases input with
    | nil => exact nil
    | cons c rest =>
      cases found : macroPattern (c::rest) with
      | none => exact char c rest found (ih rest.length (by rw [← long]; exact Nat.lt_succ_self _) rest rfl)
      | some key =>
        obtain ⟨valid,after,whole⟩ := macroPattern_some found
        rw [whole]
        refine match_ key after valid (ih after.length ?_ after rfl)
        rw [← long,whole,List.length_append,reference,List.length_cons]
        omega

def Piece.text : Piece → Bytes
  | .char c => [c]
  | .reference key => Macros.reference key

def print (pieces : List Piece) : Bytes := pieces.flatMap Piece.text

theorem print_pieces (input : Bytes) : print (pieces input) = input := by
  induction input using pieces_induction with
  | nil => rfl
  | char c rest none ih => rw [pieces_char none,print,List.flatMap_cons,← print,ih]; rfl
  | match_ key rest valid ih => rw [pieces_reference valid,print,List.flatMap_cons,← print,ih]; rfl

theorem valid_pieces (input : Bytes) : ∀ key, Piece.reference key ∈ pieces input → Valid key := by
  induction input using pieces_induction with
  | nil => exact fun key none => absurd none List.not_mem_nil
  | char c rest none ih =>
    rw [pieces_char none]
    intro key member
    exact ih key ((List.mem_cons.mp member).resolve_left (fun same => by cases same))
  | match_ other rest valid ih =>
    rw [pieces_reference valid]
    intro key member
    rcases List.mem_cons.mp member with same | later
    · cases same
      exact valid
    · exact ih key later

theorem mem_references {input key : Bytes} : key ∈ references input ↔ Piece.reference key ∈ pieces input := by
  rw [references,List.mem_filterMap]
  constructor
  · rintro ⟨piece,member,same⟩
    cases piece with
    | char c => cases same
    | reference other => exact Option.some.inj same ▸ member
  · exact fun member => ⟨_,member,rfl⟩

theorem not_macroPattern {c : UInt8} {rest : Bytes} (other : ¬ (c = dollar ∧ rest.head? = some opening)) :
    macroPattern (c::rest) = none := by
  cases found : macroPattern (c::rest) with
  | none => rfl
  | some key =>
    obtain ⟨_,after,whole⟩ := macroPattern_some found
    rw [reference,List.cons_append,List.cons.injEq] at whole
    refine absurd ⟨whole.1,?_⟩ other
    rw [whole.2]
    rfl

/-- A match begins at a character that is outside the references. -/
def Forms (items : List Piece) : Prop := ∃ before c after, items = before ++ .char c::after ∧ macroPattern (c::print after) ≠ none

theorem forms_cons_iff {item : Piece} {items : List Piece} :
    Forms (item::items) ↔ (∃ c, item = .char c ∧ macroPattern (c::print items) ≠ none) ∨ Forms items := by
  constructor
  · rintro ⟨before,c,after,same,found⟩
    cases before with
    | nil =>
      obtain ⟨rfl,rfl⟩ := List.cons.inj same
      exact .inl ⟨c,rfl,found⟩
    | cons first before =>
      obtain ⟨rfl,rfl⟩ := List.cons.inj same
      exact .inr ⟨before,c,after,rfl,found⟩
  · rintro (⟨c,rfl,found⟩ | ⟨before,c,after,rfl,found⟩)
    · exact ⟨[],c,items,rfl,found⟩
    · exact ⟨item::before,c,after,rfl,found⟩

/-- The iterator leaves no match out. -/
theorem not_forms_pieces (input : Bytes) : ¬ Forms (pieces input) := by
  induction input using pieces_induction with
  | nil =>
    rintro ⟨before,c,after,same,_⟩
    cases before <;> cases same
  | char c rest none ih =>
    rw [pieces_char none,forms_cons_iff,print_pieces]
    rintro (⟨_,⟨rfl⟩,found⟩ | forms)
    · exact found none
    · exact ih forms
  | match_ key rest valid ih =>
    rw [pieces_reference valid,forms_cons_iff]
    rintro (⟨_,same,_⟩ | forms)
    · cases same
    · exact ih forms

/-- Pieces between which no match begins are found again in their text. -/
theorem pieces_print {items : List Piece} (valid : ∀ key, Piece.reference key ∈ items → Valid key) (apart : ¬ Forms items) :
    pieces (print items) = items := by
  induction items with
  | nil => rfl
  | cons item items ih =>
    have later := ih (fun key member => valid key (List.mem_cons_of_mem _ member)) (mt (fun forms => forms_cons_iff.mpr (.inr forms)) apart)
    rw [print,List.flatMap_cons,← print]
    cases item with
    | reference key => rw [Piece.text,pieces_reference (valid key List.mem_cons_self),later]
    | char c =>
      have none : macroPattern (c::print items) = none := not_not.mp fun found => apart (forms_cons_iff.mpr (.inl ⟨c,rfl,found⟩))
      rw [Piece.text,List.singleton_append,pieces_char none,later]

/-- A match that begins outside the references begins with a dollar sign before an opening brace. -/
theorem not_forms {items : List Piece} (apart : items.IsChain fun first second => ¬ (first = .char dollar ∧ second = .char opening)) :
    ¬ Forms items := by
  rintro ⟨before,c,after,rfl,found⟩
  refine found (not_macroPattern ?_)
  rintro ⟨rfl,begins⟩
  have behind := (List.isChain_append.mp apart).2.1
  cases after with
  | nil => cases begins
  | cons next after =>
    cases next with
    | reference key => exact absurd (Option.some.inj begins) (by decide)
    | char d =>
      obtain rfl : d = opening := Option.some.inj begins
      exact (List.isChain_cons_cons.mp behind).1 ⟨rfl,rfl⟩

end Scan

section Passes
variable (macros : Bytes → Option Bytes)

def expansion : Piece → Option (List Piece)
  | .char _ => none
  | .reference key => (macros key).map pieces

/-- The pieces of a text with values put in to some depth. -/
def filled (input : Bytes) (depth : Nat) : List Piece := (expand (expansion macros))^[depth] (pieces input)

/-- With values put in to some depth, a match of the expression comes about that is none of those
in the texts themselves: it begins outside their references. -/
def Combines (input : Bytes) : Prop := ∃ depth, Forms (filled macros input depth)

variable {macros}

theorem expansion_reference (key : Bytes) : expansion macros (.reference key) = none ↔ macros key = none := Option.map_eq_none_iff

theorem print_append (first second : List Piece) : print (first ++ second) = print first ++ print second := List.flatMap_append

theorem substitute_eq (piece : Piece) : substitute macros piece = print ((expansion macros piece).getD [piece]) := by
  cases piece with
  | char c => rfl
  | reference key =>
    simp only [substitute,expansion]
    cases macros key with
    | none => exact (List.append_nil _).symm
    | some value => exact (print_pieces value).symm

theorem substituted_eq (input : Bytes) : substituted macros input = print (expand (expansion macros) (pieces input)) := by
  rw [substituted,print,expand,List.flatMap_assoc]
  exact List.flatMap_congr fun piece _ => substitute_eq piece

theorem needsReparse_eq_false (result : Bytes) :
    needsReparse macros result = false ↔ ∀ piece ∈ pieces result, expansion macros piece = none := by
  rw [needsReparse,List.any_eq_false]
  constructor
  · intro none piece member
    cases piece with
    | char c => rfl
    | reference key => simpa [expansion] using none key (mem_references.mpr member)
  · intro none key member
    simpa [expansion] using none _ (mem_references.mp member)

theorem macroParse_unique {depth other : Nat} {input result result' : Bytes} (first : MacroParse macros depth input = some result)
    (second : MacroParse macros other input = some result') : result = result' := by
  induction depth generalizing other input with
  | zero => cases first
  | succ depth ih =>
    cases other with
    | zero => cases second
    | succ other =>
      rw [MacroParse] at first second
      by_cases again : needsReparse macros (substituted macros input)
      · rw [if_pos again] at first second
        exact ih first second
      · rw [if_neg again] at first second
        exact Option.some.inj (first.symm.trans second)

theorem macroParse_once {input : Bytes} (settled : needsReparse macros input = false) : MacroParse macros 1 input = some input := by
  have stays : substituted macros input = input := by
    rw [substituted_eq,expand_finished ((needsReparse_eq_false _).mp settled),print_pieces]
  rw [MacroParse,stays,settled]
  rfl

theorem filled_succ (input : Bytes) (n : Nat) : filled macros input (n+1) = expand (expansion macros) (filled macros input n) :=
  Function.iterate_succ_apply' ..

theorem valid_filled (n : Nat) (input : Bytes) : ∀ key, Piece.reference key ∈ filled macros input n → Valid key := by
  have valid : ∀ piece ∈ filled macros input n, ∀ key, piece = .reference key → Valid key := by
    refine forall_iterate ?_ n fun piece inside key same => valid_pieces input key (same ▸ inside)
    intro piece items _ found next inside key same
    cases piece with
    | char c => cases found
    | reference outer =>
      obtain ⟨value,_,rfl⟩ := Option.map_eq_some_iff.mp found
      exact valid_pieces value key (same ▸ inside)
  exact fun key member => valid _ member key rfl

section Pass
variable {input : Bytes} {n : Nat}

/-- Where nothing combines, a pass finds the references that the parts of its text have. -/
theorem pieces_filled (apart : ¬ Forms (filled macros input n)) : pieces (print (filled macros input n)) = filled macros input n :=
  pieces_print (valid_filled n input) apart

theorem macroParse_pass (apart : ¬ Forms (filled macros input n)) (depth : Nat) :
    MacroParse macros (depth+1) (print (filled macros input n)) =
      if needsReparse macros (print (filled macros input (n+1))) then MacroParse macros depth (print (filled macros input (n+1)))
      else some (print (filled macros input (n+1))) := by
  rw [MacroParse,substituted_eq,pieces_filled apart,← filled_succ]

theorem needsReparse_filled (apart : ¬ Forms (filled macros input n)) :
    needsReparse macros (print (filled macros input n)) = false ↔ ∀ piece ∈ filled macros input n, expansion macros piece = none := by
  rw [needsReparse_eq_false,pieces_filled apart]

/-- What a parse returns is the text after some pass, with no known reference left. -/
theorem macroParse_filled (apart : ¬ Combines macros input) {depth : Nat} {result : Bytes}
    (parsed : MacroParse macros depth (print (filled macros input n)) = some result) :
    ∃ m, result = print (filled macros input m) ∧ ∀ piece ∈ filled macros input m, expansion macros piece = none := by
  have quiet (m : Nat) : ¬ Forms (filled macros input m) := fun forms => apart ⟨m,forms⟩
  induction depth generalizing n with
  | zero => cases parsed
  | succ depth ih =>
    rw [macroParse_pass (quiet n)] at parsed
    split at parsed
    · exact ih parsed
    · rename_i done
      exact ⟨n+1,(Option.some.inj parsed).symm,(needsReparse_filled (quiet _)).mp (Bool.eq_false_iff.mpr done)⟩

/-- Where nothing combines before the text has no known reference, that text is what the parse
returns. -/
theorem macroParse_settled {more : Nat} (quiet : ∀ k < n+more, ¬ Forms (filled macros input k))
    (settled : needsReparse macros (print (filled macros input (n+more))) = false) :
    ∃ depth, MacroParse macros depth (print (filled macros input n)) = some (print (filled macros input (n+more))) := by
  induction more generalizing n with
  | zero => exact ⟨1,macroParse_once settled⟩
  | succ more ih =>
    have later : n+(more+1) = n+1+more := by omega
    rw [later] at quiet settled ⊢
    obtain ⟨depth,parsed⟩ := ih quiet settled
    by_cases again : needsReparse macros (print (filled macros input (n+1)))
    · refine ⟨depth+1,?_⟩
      rw [macroParse_pass (quiet n (by omega)),if_pos again,parsed]
    · refine ⟨1,?_⟩
      rw [macroParse_pass (quiet n (by omega)),if_neg again]
      exact congrArg some (macroParse_unique (macroParse_once (Bool.eq_false_iff.mpr again)) parsed)

end Pass

theorem keeps_expanded (n : Nat) (items : List Piece) : Keeps macros items (print ((expand (expansion macros))^[n] items)) := by
  induction items with
  | nil => exact congrArg print (iterate_nil n)
  | cons piece items ih =>
    rw [← List.singleton_append,iterate_append,print_append]
    cases piece with
    | char c =>
      rw [iterate_stopped rfl]
      exact ⟨_,rfl,ih⟩
    | reference key =>
      refine ⟨_,_,rfl,fun none => ?_,ih⟩
      rw [iterate_stopped ((expansion_reference key).mpr none)]
      exact List.append_nil _

/-- A text without known references is returned, whatever combines in it, if nothing combines
before it. -/
theorem parses_settled {input : Bytes} {expanded : Bytes → Prop} {n : Nat} (quiet : ∀ k < n, ¬ Forms (filled macros input k))
    (settled : needsReparse macros (print (filled macros input n)) = false) :
    Parses macros expanded input ↔ expanded (print (filled macros input n)) := by
  have from_start := macroParse_settled (n := 0) (by rwa [Nat.zero_add]) (by rwa [Nat.zero_add])
  obtain ⟨depth,parsed⟩ : ∃ depth, MacroParse macros depth input = some (print (filled macros input n)) := by
    rwa [Nat.zero_add,show print (filled macros input 0) = input from print_pieces input] at from_start
  constructor
  · rintro ⟨_,result,returned,full,_⟩
    exact macroParse_unique returned parsed ▸ full
  · exact fun full => ⟨depth,_,parsed,full,keeps_expanded n (pieces input)⟩

def Allowed (stays : Bytes → Prop) : Piece → Prop
  | .char _ => True
  | .reference key => stays key

theorem allowed_iff {stays : Bytes → Prop} (input : Bytes) :
    (∀ piece ∈ pieces input, Allowed stays piece) ↔ ∀ key ∈ references input, stays key := by
  constructor
  · exact fun allowed key member => allowed _ (mem_references.mp member)
  · intro allowed piece member
    cases piece with
    | char c => trivial
    | reference key => exact allowed key (mem_references.mpr member)

theorem parses_each {input : Bytes} (apart : ¬ Combines macros input) {expanded : Bytes → Prop} {stays : Bytes → Prop}
    (readable : ∀ result, expanded result ↔ ∀ key ∈ references result, stays key) :
    Parses macros expanded input ↔ ∀ piece ∈ pieces input, Ends (expansion macros) (Allowed stays) piece := by
  have quiet (n : Nat) : ¬ Forms (filled macros input n) := fun forms => apart ⟨n,forms⟩
  rw [← finished_iff]
  constructor
  · rintro ⟨depth,result,parsed,full,_⟩
    rw [← print_pieces input] at parsed
    obtain ⟨n,rfl,none⟩ := macroParse_filled (n := 0) apart parsed
    rw [readable,← allowed_iff,pieces_filled (quiet n)] at full
    exact ⟨n,fun piece member => ⟨none piece member,full piece member⟩⟩
  · rintro ⟨n,finished⟩
    have settled := (needsReparse_filled (quiet n)).mpr fun piece member => (finished piece member).1
    refine (parses_settled (fun k _ => quiet k) settled).mpr ?_
    rw [readable,← allowed_iff,pieces_filled (quiet n)]
    exact fun piece member => (finished piece member).2

end Passes

section Substrings

/-- A brace that closes a reference closes the first reference of the text or a later one. -/
theorem reference_split {key outer before after rest : Bytes} (valid : Valid key) (whole : Valid outer)
    (same : reference outer ++ rest = before ++ (reference key ++ after)) :
    dollar::opening::outer = before ++ dollar::opening::key ∨ reference key <:+: rest := by
  have mark : closing ∉ dollar::opening::key := by
    simpa [closing,dollar,opening] using valid.2
  have outermost : closing ∉ dollar::opening::outer := by
    simpa [closing,dollar,opening] using whole.2
  have texts : (before ++ dollar::opening::key) ++ closing::after = (dollar::opening::outer) ++ closing::rest := by
    simpa [reference] using same.symm
  rcases append_eq_append_cons texts with ⟨right,long,rfl⟩ | ⟨left,short,there⟩
  · rcases append_eq_append_cons long with ⟨middle,_,rfl⟩ | ⟨middle,_,inside⟩
    · refine .inr ⟨middle,after,?_⟩
      simp [reference]
    · exact absurd (inside ▸ List.mem_append_right middle List.mem_cons_self) mark
  · cases left with
    | nil => exact .inl (by rw [short,List.append_nil])
    | cons c left =>
      rw [List.cons_append,List.cons.injEq] at there
      exact absurd (short ▸ List.mem_append_right _ (there.1 ▸ List.mem_cons_self)) outermost

theorem hidden_in {key outer before : Bytes} (ends : dollar::opening::outer = before ++ dollar::opening::key) :
    outer = key ∨ dollar::opening::key <:+ outer := by
  match before with
  | [] => exact .inl (List.cons.inj (List.cons.inj ends).2).2
  | [_] => cases (List.cons.inj (List.cons.inj ends).2).1
  | _::_::before => exact .inr ⟨before,(List.cons.inj (List.cons.inj ends).2).2.symm⟩

/-- Where a reference stands in a text: it is a match of the iterator or the end of one. -/
theorem reference_occurs_iff {key : Bytes} (valid : Valid key) (input : Bytes) :
    reference key <:+: input ↔ ∃ outer ∈ references input, outer = key ∨ dollar::opening::key <:+ outer := by
  induction input using pieces_induction with
  | nil => simp [reference,references,pieces,walk]
  | char c rest none ih =>
    have same : references (c::rest) = references rest := by rw [references,pieces_char none]; rfl
    rw [same,← ih,List.infix_cons_iff]
    refine or_iff_right ?_
    rintro ⟨after,front⟩
    rw [← front,macroPattern_reference valid] at none
    cases none
  | match_ outer rest whole ih =>
    have same : references (reference outer ++ rest) = outer::references rest := by rw [references,pieces_reference whole]; rfl
    simp only [same,List.mem_cons,exists_eq_or_imp,← ih]
    constructor
    · rintro ⟨before,after,text⟩
      rw [List.append_assoc] at text
      exact (reference_split valid whole text.symm).imp_left hidden_in
    · rintro ((rfl | ⟨before,rfl⟩) | inside)
      · exact (List.prefix_append _ _).isInfix
      · refine ⟨dollar::opening::before,rest,?_⟩
        simp [reference]
      · exact inside.trans (List.suffix_append _ _).isInfix

/-- No substring is left that matches the pattern and has a known key. -/
def Expanded (macros : Bytes → Option Bytes) (result : Bytes) : Prop :=
  ∀ key, Valid key → reference key <:+: result → macros key = none

/-- The keys of the references that end a reference with this key, itself included, are unknown. -/
def Clear (macros : Bytes → Option Bytes) (outer : Bytes) : Prop :=
  ∀ key, Valid key → outer = key ∨ dollar::opening::key <:+ outer → macros key = none

theorem expanded_iff {macros : Bytes → Option Bytes} (result : Bytes) :
    Expanded macros result ↔ ∀ outer ∈ references result, Clear macros outer := by
  constructor
  · exact fun expanded outer member key valid hidden =>
      expanded key valid ((reference_occurs_iff valid result).mpr ⟨outer,member,hidden⟩)
  · intro clear key valid inside
    obtain ⟨outer,member,hidden⟩ := (reference_occurs_iff valid result).mp inside
    exact clear outer member key valid hidden

end Substrings

section Map
variable (macros : List (Bytes × Bytes)) (input : Bytes)

def find (key : Bytes) : Option Bytes := macros.lookup key

/-- A reference that the expansion meets leads through the values back to itself. -/
def Circular : Prop := ∃ key, Met (expansion (find macros)) (pieces input) (.reference key) ∧
  Relation.TransGen (Mentions (expansion (find macros))) (.reference key) (.reference key)

/-- An unknown reference that the expansion meets ends with a known one. -/
def Hides : Prop := ∃ outer key, Met (expansion (find macros)) (pieces input) (.reference outer) ∧ find macros outer = none ∧
  Valid key ∧ dollar::opening::key <:+ outer ∧ find macros key ≠ none

variable {macros input}

theorem finite_expansion : {piece | expansion (find macros) piece ≠ none}.Finite := by
  refine ((macros.map Prod.fst).map Piece.reference).finite_toSet.subset fun piece expands => ?_
  cases piece with
  | char c => exact absurd rfl expands
  | reference key =>
    refine List.mem_map_of_mem ?_
    by_contra absent
    refine expands ((expansion_reference key).mpr (List.lookup_eq_none_iff.mpr fun entry member => ?_))
    rw [bne_iff_ne]
    exact fun same => absent (same ▸ List.mem_map_of_mem member)

theorem not_circular_iff : ¬ Circular macros input ↔ ∀ piece, Met (expansion (find macros)) (pieces input) piece →
    ¬ Relation.TransGen (Mentions (expansion (find macros))) piece piece := by
  constructor
  · intro none piece met circle
    cases piece with
    | char c =>
      obtain ⟨middle,_,items,found,_⟩ := Relation.TransGen.tail'_iff.mp circle
      cases found
    | reference key => exact none ⟨key,met,circle⟩
  · rintro none ⟨key,met,circle⟩
    exact none _ met circle

theorem scanned_iff (result : Bytes) : Scanned (find macros) result ↔ ∀ key ∈ references result, find macros key = none := Iff.rfl

theorem parses_when {stays expanded : Bytes → Prop} (apart : ¬ Combines (find macros) input)
    (readable : ∀ result, expanded result ↔ ∀ key ∈ references result, stays key) :
    Parses (find macros) expanded input ↔ ¬ Circular macros input ∧
      ∀ key, Met (expansion (find macros)) (pieces input) (.reference key) → find macros key = none → stays key := by
  rw [parses_each apart readable,ends_iff finite_expansion,not_circular_iff]
  refine and_congr_right fun _ => ?_
  constructor
  · exact fun allowed key met unknown => allowed _ met ((expansion_reference key).mpr unknown)
  · intro allowed piece met stopped
    cases piece with
    | char c => trivial
    | reference key => exact allowed key met ((expansion_reference key).mp stopped)

/-- Nothing combines where no dollar sign outside the references comes to stand before an opening
brace. -/
theorem not_combines_of_not_meet (apart : ¬ Meet (expansion (find macros)) (pieces input) (.char dollar) (.char opening)) :
    ¬ Combines (find macros) input := by
  rintro ⟨depth,forms⟩
  exact not_forms (isChain_iterate depth apart) forms

/-- What the expansion reads is the text or a value. -/
theorem source_text {source : List Piece} (occurs : Source (expansion (find macros)) (pieces input) source) :
    source = pieces input ∨ ∃ entry ∈ macros, source = pieces entry.2 := by
  cases occurs with
  | whole => exact .inl rfl
  | inner _ _ found =>
    rename_i piece _ _
    cases piece with
    | char c => cases found
    | reference key =>
      obtain ⟨value,known,rfl⟩ := Option.map_eq_some_iff.mp found
      obtain ⟨_,_,rfl,_⟩ := List.lookup_eq_some_iff.mp known
      exact .inr ⟨(key,value),List.mem_append_right _ List.mem_cons_self,rfl⟩

theorem not_combines (whole : .char opening ∉ pieces input) (values : ∀ entry ∈ macros, .char opening ∉ pieces entry.2) :
    ¬ Combines (find macros) input := by
  apply not_combines_of_not_meet
  rintro ⟨source,occurs,before,_,between,q,after,rfl,_,_,begins⟩
  have met : Met (expansion (find macros)) (pieces input) q := ⟨_,occurs,by simp⟩
  obtain ⟨other,inside,member⟩ := met_of_begins met begins
  rcases source_text inside with rfl | ⟨entry,known,rfl⟩
  · exact whole member
  · exact values entry known member

/-- No reference leads back to itself where each value refers to keys of a lower rank only. -/
theorem not_circular_of_rank (rank : Bytes → Nat)
    (lower : ∀ entry ∈ macros, ∀ inner ∈ references entry.2, rank inner < rank entry.1) : ¬ Circular macros input := by
  rintro ⟨key,_,circle⟩
  let height : Piece → Nat
    | .char _ => 0
    | .reference key => rank key+1
  have step {a b : Piece} (mentions : Mentions (expansion (find macros)) a b) : height a < height b := by
    obtain ⟨items,found,inside⟩ := mentions
    cases b with
    | char c => cases found
    | reference outer =>
      obtain ⟨value,known,rfl⟩ := Option.map_eq_some_iff.mp found
      obtain ⟨before,after,same,_⟩ := List.lookup_eq_some_iff.mp known
      cases a with
      | char c => exact Nat.succ_pos _
      | reference inner =>
        refine Nat.succ_lt_succ (lower (outer,value) ?_ inner (mem_references.mpr inside))
        exact same ▸ List.mem_append_right _ List.mem_cons_self
  exact not_circular_of_acc ((Subrelation.wf step (measure height).wf).apply _) circle

/-- Nothing hides where no key has an opening brace. -/
theorem not_hides (whole : ∀ key ∈ references input, opening ∉ key) (values : ∀ entry ∈ macros, ∀ key ∈ references entry.2, opening ∉ key) :
    ¬ Hides macros input := by
  rintro ⟨outer,key,⟨source,occurs,member⟩,_,_,hidden,_⟩
  have clean : opening ∉ outer := by
    rcases source_text occurs with rfl | ⟨entry,known,rfl⟩
    · exact whole outer (mem_references.mpr member)
    · exact values entry known outer (mem_references.mpr member)
  exact clean (hidden.subset (List.mem_cons_of_mem _ List.mem_cons_self))

variable (macros input) in
/-- When no texts combine, the expansion of a text ends with no known reference left for the
iterator exactly when no reference that it meets leads back to itself. For none to be left in any
substring, the unknown references that it meets must not end with a known one. Whatever combines
then, the expansion ends with the text that has no known reference when nothing has combined
before that text. -/
theorem parses_iff : (¬ Combines (find macros) input →
      (Parses (find macros) (Scanned (find macros)) input ↔ ¬ Circular macros input) ∧
      (Parses (find macros) (Expanded (find macros)) input ↔ ¬ Circular macros input ∧ ¬ Hides macros input)) ∧
    ∀ depth, (∀ earlier < depth, ¬ Forms (filled (find macros) input earlier)) →
      needsReparse (find macros) (print (filled (find macros) input depth)) = false →
      Parses (find macros) (Scanned (find macros)) input ∧
      (Parses (find macros) (Expanded (find macros)) input ↔ Expanded (find macros) (print (filled (find macros) input depth))) := by
  refine ⟨fun apart => ⟨?_,?_⟩,fun depth quiet settled => ⟨(parses_settled quiet settled).mpr ?_,parses_settled quiet settled⟩⟩
  · rw [parses_when apart scanned_iff]
    exact and_iff_left fun key _ unknown => unknown
  · rw [parses_when apart expanded_iff]
    refine and_congr_right fun _ => ?_
    constructor
    · rintro clear ⟨outer,key,met,unknown,valid,hidden,known⟩
      exact known (clear outer met unknown key valid (.inr hidden))
    · intro none outer met unknown key valid inside
      rcases inside with rfl | hidden
      · exact unknown
      · by_contra known
        exact none ⟨outer,key,met,unknown,valid,hidden,known⟩
  · intro key member
    exact (expansion_reference key).mp ((needsReparse_eq_false _).mp settled _ (mem_references.mp member))

/-- A value within a value and an unknown key; a text without a match; and one in which a match
that no value has comes about last. -/
theorem parses_nested :
    Parses (find [([82],reference [67] ++ [32]),([67],[103])]) (Expanded (find [([82],reference [67] ++ [32]),([67],[103])]))
        (reference [82] ++ reference [72]) ∧
      Parses (find []) (Scanned (find [])) [dollar,opening,closing] ∧
      Parses (find [([82],reference [67]),([67],[dollar])]) (Scanned (find [([82],reference [67]),([67],[dollar])]))
        (reference [82] ++ [opening,66,closing]) := by
  obtain ⟨nested,_⟩ := parses_iff [([82],reference [67] ++ [32]),([67],[103])] (reference [82] ++ reference [72])
  obtain ⟨_,settled⟩ := parses_iff [] [dollar,opening,closing]
  obtain ⟨_,behind⟩ := parses_iff [([82],reference [67]),([67],[dollar])] (reference [82] ++ [opening,66,closing])
  refine ⟨(nested (not_combines (by decide) (by decide))).2.mpr ⟨?_,not_hides (by decide) (by decide)⟩,
    (settled 0 nofun (by decide)).1,(behind 2 (fun earlier first => ?_) (by decide)).1⟩
  · exact not_circular_of_rank (fun key => if key = [82] then 1 else 0) (by decide)
  · rcases Nat.le_one_iff_eq_zero_or_eq_one.mp (Nat.lt_succ_iff.mp first) with rfl | rfl
    · exact not_forms_pieces _
    · exact not_forms (by decide)

end Map

section RunCommand

/-- The key under which `Bootstrap::BuildGameServer` hands over the command of the settings. -/
def GAME_SERVER_RUN_COMMAND : Bytes := Streams.ascii "GAME_SERVER_RUN_COMMAND".toList

/-- The macros when the command is a reference to itself; a space is appended to it. -/
def commandOfItself (key : Bytes) : List (Bytes × Bytes) := [(key,reference key ++ [32])]

theorem valid_GAME_SERVER_RUN_COMMAND : Valid GAME_SERVER_RUN_COMMAND := ⟨by decide,by decide⟩

theorem commandOfItself_never {key : Bytes} (valid : Valid key) {stays expanded : Bytes → Prop}
    (readable : ∀ result, expanded result ↔ ∀ inner ∈ references result, stays inner) :
    ¬ Parses (find (commandOfItself key)) expanded (reference key) := by
  have input : pieces (reference key) = [.reference key] := by
    rw [← List.append_nil (reference key),pieces_reference valid]
    rfl
  have value : pieces (reference key ++ [32]) = [.reference key,.char 32] := pieces_reference valid [32]
  have apart : ¬ Combines (find (commandOfItself key)) (reference key) := by
    refine not_combines (by simp [input]) fun entry member => ?_
    obtain rfl := List.mem_singleton.mp member
    simp [value,opening]
  rw [parses_each apart readable,input]
  intro ends
  have known : expansion (find (commandOfItself key)) (.reference key) = some [.reference key,.char 32] := by
    simp [expansion,find,commandOfItself,value]
  exact not_ends_of_mem known List.mem_cons_self (ends _ List.mem_cons_self)

theorem run_command_never_parses :
    ¬ Parses (find (commandOfItself GAME_SERVER_RUN_COMMAND)) (Scanned (find (commandOfItself GAME_SERVER_RUN_COMMAND)))
        (reference GAME_SERVER_RUN_COMMAND) ∧
      ¬ Parses (find (commandOfItself GAME_SERVER_RUN_COMMAND)) (Expanded (find (commandOfItself GAME_SERVER_RUN_COMMAND)))
        (reference GAME_SERVER_RUN_COMMAND) :=
  ⟨commandOfItself_never valid_GAME_SERVER_RUN_COMMAND scanned_iff,commandOfItself_never valid_GAME_SERVER_RUN_COMMAND expanded_iff⟩

end RunCommand

end Macros

end AtlasNet
