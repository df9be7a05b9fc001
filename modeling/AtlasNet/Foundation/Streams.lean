import Mathlib.Data.List.TakeWhile
import Mathlib.Algebra.Group.Nat.Defs
import Mathlib.Data.Nat.Log
import Mathlib.Tactic.Common
import Mathlib.Tactic.SplitIfs

/-! Text streams: what `<<` and `to_string` print for a number in the classic locale,
what `stod` reads, and the pieces that `getline` takes from a text. -/
namespace AtlasNet.Foundation.Streams

section Printing

/-- A character that separates nothing and is kept as one byte. -/
def printable (c : Char) : Bool := 32 ≤ c.toNat && c.toNat < 127

def ascii (text : List Char) : List UInt8 := text.map (fun c => UInt8.ofNat c.toNat)

def decimal (n : Nat) : List Char := Nat.toDigits 10 n

def integer (n : Int) : List Char := if n < 0 then '-'::decimal n.natAbs else decimal n.natAbs

def sixDigits (n : Nat) : List Char := List.replicate (6-(decimal n).length) '0' ++ decimal n

/-- `%f` of a number of seconds, given in microseconds. -/
def seconds (us : Nat) : List Char := decimal (us / 10^6) ++ '.'::sixDigits (us % 10^6)

/-- The quotient rounded to a whole number, a tie to the even one. -/
def rounded (n d : Nat) : Nat :=
  if d < 2*(n % d) ∨ (2*(n % d) = d ∧ n / d % 2 = 1) then n / d+1 else n / d

def magnitude (n d : Nat) : Int := if d ≤ n then Nat.log 10 (n / d) else -Nat.clog 10 ((d+n-1) / n)

/-- The six significant digits of a positive quotient as one number, and its exponent. -/
def significant (n d : Nat) : Nat × Int :=
  let x := magnitude n d
  let digits := rounded (n*10^(5-x).toNat) (d*10^(x-5).toNat)
  if digits = 10^6 then (10^5,x+1) else (digits,x)

def trimZeros (digits : List Char) : List Char := (digits.reverse.dropWhile (· = '0')).reverse

def pointed (whole fraction : List Char) : List Char :=
  if fraction = [] then whole else whole ++ '.'::fraction

/-- `%g` of a positive quotient: plain notation for exponents from -4 to 5. -/
def general (n d : Nat) : List Char :=
  let (value,x) := significant n d
  let digits := decimal value
  if 0 ≤ x ∧ x < 6 then pointed (digits.take (x.toNat+1)) (trimZeros (digits.drop (x.toNat+1)))
  else if -4 ≤ x ∧ x < 0 then pointed ['0'] (trimZeros (List.replicate (-x-1).toNat '0' ++ digits))
  else pointed (digits.take 1) (trimZeros (digits.drop 1)) ++ 'e'::(if x < 0 then '-' else '+')::
    (if x.natAbs < 10 then '0'::decimal x.natAbs else decimal x.natAbs)

/-- A `float` by its bit pattern. -/
def float (bits : UInt32) : List Char :=
  let exponent := bits.toNat / 2^23 % 256
  let fraction := bits.toNat % 2^23
  let text :=
    if exponent = 255 then (if fraction = 0 then ['i','n','f'] else ['n','a','n'])
    else if exponent = 0 then (if fraction = 0 then ['0'] else general fraction (2^149))
    else general ((2^23+fraction)*2^exponent) (2^150)
  if 2^31 ≤ bits.toNat then '-'::text else text

/-- `%f` of a `float` by its bit pattern, which is rounded to millionths. -/
def fixed (bits : UInt32) : List Char :=
  let exponent := bits.toNat / 2^23 % 256
  let fraction := bits.toNat % 2^23
  let text :=
    if exponent = 255 then (if fraction = 0 then ['i','n','f'] else ['n','a','n'])
    else if exponent = 0 then seconds (rounded (fraction*10^6) (2^149))
    else seconds (rounded ((2^23+fraction)*2^exponent*10^6) (2^150))
  if 2^31 ≤ bits.toNat then '-'::text else text

theorem printable_decimal (n : Nat) : (decimal n).all printable = true := by
  apply List.all_eq_true.mpr
  intro c member
  have digit := Nat.isDigit_of_mem_toDigits (by decide) (by decide) member
  simp only [Char.isDigit,ge_iff_le,Bool.and_eq_true,decide_eq_true_eq,UInt32.le_iff_toNat_le] at digit
  have low : 48 ≤ c.toNat := digit.1
  have high : c.toNat ≤ 57 := digit.2
  simp only [printable,Bool.and_eq_true,decide_eq_true_eq]
  omega

theorem decimal_nonempty (n : Nat) : decimal n ≠ [] := Nat.toDigits_ne_nil

theorem decimal_injective : Function.Injective decimal := by
  intro first second same
  have value := congrArg (Nat.ofDigitChars 10 · 0) same
  simpa only [decimal,Nat.ofDigitChars_ten_toDigits] using value

theorem printable_integer (n : Int) : (integer n).all printable = true := by
  unfold integer
  split
  · rw [List.all_cons,printable_decimal]
    rfl
  · exact printable_decimal _

theorem integer_nonempty (n : Int) : integer n ≠ [] := by
  unfold integer
  split
  · exact List.cons_ne_nil _ _
  · exact decimal_nonempty _

theorem printable_part {text part : List Char} (whole : text.all printable = true) (inside : ∀ c ∈ part, c ∈ text) :
    part.all printable = true :=
  List.all_eq_true.mpr (fun c member => List.all_eq_true.mp whole c (inside c member))

theorem printable_trimZeros {digits : List Char} (whole : digits.all printable = true) :
    (trimZeros digits).all printable = true := by
  refine printable_part whole (fun c member => ?_)
  rw [trimZeros,List.mem_reverse] at member
  exact List.mem_reverse.mp ((List.dropWhile_sublist _).subset member)

theorem printable_pointed {whole fraction : List Char} (first : whole.all printable = true)
    (second : fraction.all printable = true) : (pointed whole fraction).all printable = true := by
  unfold pointed
  split
  · exact first
  · rw [List.all_append,List.all_cons,first,second]
    rfl

theorem printable_general (n d : Nat) : (general n d).all printable = true := by
  have digits := printable_decimal (significant n d).1
  have taken (k : Nat) : ((decimal (significant n d).1).take k).all printable = true :=
    printable_part digits (fun _ => List.mem_of_mem_take)
  have dropped (k : Nat) : ((decimal (significant n d).1).drop k).all printable = true :=
    printable_part digits (fun _ => List.mem_of_mem_drop)
  have zeros (k : Nat) : (List.replicate k '0').all printable = true :=
    List.all_eq_true.mpr (fun c member => by rw [List.eq_of_mem_replicate member]; rfl)
  unfold general
  split
  rename_i value x split_digits
  rw [split_digits] at digits taken dropped
  split
  · exact printable_pointed (taken _) (printable_trimZeros (dropped _))
  split
  · refine printable_pointed rfl (printable_trimZeros ?_)
    rw [List.all_append,zeros,digits]
    rfl
  · have exponent := printable_decimal x.natAbs
    rw [List.all_append,List.all_cons,List.all_cons,printable_pointed (taken _) (printable_trimZeros (dropped _))]
    split <;> split <;> simp [exponent,printable]

theorem general_nonempty (n d : Nat) : general n d ≠ [] := by
  have pointed_nonempty (whole fraction : List Char) (some : whole ≠ []) : pointed whole fraction ≠ [] := by
    unfold pointed
    split
    · exact some
    · simp
  have taken (value k : Nat) : (decimal value).take (k+1) ≠ [] := by
    intro none
    rcases List.take_eq_nil_iff.mp none with zero | empty
    · cases zero
    · exact decimal_nonempty value empty
  unfold general
  split
  rename_i value x _
  split
  · exact pointed_nonempty _ _ (taken _ _)
  split
  · exact pointed_nonempty _ _ (List.cons_ne_nil _ _)
  · simp

theorem printable_float (bits : UInt32) : (float bits).all printable = true ∧ float bits ≠ [] := by
  have text (exponent fraction : Nat) : (if exponent = 255 then (if fraction = 0 then ['i','n','f'] else ['n','a','n'])
      else if exponent = 0 then (if fraction = 0 then ['0'] else general fraction (2^149))
      else general ((2^23+fraction)*2^exponent) (2^150)).all printable = true := by
    split_ifs
    · rfl
    · rfl
    · rfl
    · exact printable_general _ _
    · exact printable_general _ _
  have some (exponent fraction : Nat) : (if exponent = 255 then (if fraction = 0 then ['i','n','f'] else ['n','a','n'])
      else if exponent = 0 then (if fraction = 0 then ['0'] else general fraction (2^149))
      else general ((2^23+fraction)*2^exponent) (2^150)) ≠ [] := by
    split_ifs
    · exact List.cons_ne_nil _ _
    · exact List.cons_ne_nil _ _
    · exact List.cons_ne_nil _ _
    · exact general_nonempty _ _
    · exact general_nonempty _ _
  unfold float
  by_cases negative : 2^31 ≤ bits.toNat
  · rw [if_pos negative]
    refine ⟨?_,List.cons_ne_nil _ _⟩
    rw [List.all_cons,text]
    rfl
  · rw [if_neg negative]
    exact ⟨text _ _,some _ _⟩

theorem printable_code {c : Char} (holds : printable c = true) : (UInt8.ofNat c.toNat).toNat = c.toNat ∧ 32 ≤ c.toNat := by
  simp only [printable,Bool.and_eq_true,decide_eq_true_eq] at holds
  rw [UInt8.toNat_ofNat']
  omega

theorem ascii_injective {a b : List Char} (first : a.all printable = true) (second : b.all printable = true)
    (same : ascii a = ascii b) : a = b := by
  induction a generalizing b with
  | nil => exact (List.map_eq_nil_iff.mp same.symm).symm
  | cons c rest ih =>
    cases b with
    | nil => cases same
    | cons d others =>
      simp only [List.all_cons,Bool.and_eq_true] at first second
      obtain ⟨heads,tails⟩ := List.cons.inj same
      have codes := congrArg UInt8.toNat heads
      rw [(printable_code first.1).1,(printable_code second.1).1] at codes
      rw [Char.toNat_inj.mp codes,ih first.2 second.2 tails]

theorem control_not_mem_ascii {text : List Char} (whole : text.all printable = true) {control : UInt8}
    (low : control.toNat < 32) : control ∉ ascii text := by
  intro member
  obtain ⟨c,inside,rfl⟩ := List.mem_map.mp member
  have code := printable_code (List.all_eq_true.mp whole c inside)
  omega

end Printing

section Numbers

def chars (text : List UInt8) : List Char := text.map (fun byte => Char.ofNat byte.toNat)

/-- `stod` of a number without sign and exponent, in millionths. What else it takes (blanks, signs,
exponents, infinities) is no number here. -/
def stod (text : List UInt8) : Option Nat :=
  let whole := (chars text).takeWhile Char.isDigit
  let fraction := match (chars text).dropWhile Char.isDigit with
    | '.'::rest => rest.takeWhile Char.isDigit
    | _ => []
  if whole = [] ∧ fraction = [] then none
  else some (Nat.ofDigitChars 10 whole 0*10^6+Nat.ofDigitChars 10 ((fraction ++ List.replicate 6 '0').take 6) 0)

def blank (c : Char) : Bool := c = ' ' || (9 ≤ c.toNat && c.toNat ≤ 13)

def sign : List Char → Bool × List Char
  | '-'::text => (true,text)
  | '+'::text => (false,text)
  | text => (false,text)

/-- `stoull` in base ten: blanks, a sign, and as many digits as there are. A number that does
not fit is out of range. -/
def stoull (text : List UInt8) : Option UInt64 :=
  let (negative,unsigned) := sign ((chars text).dropWhile blank)
  let digits := unsigned.takeWhile Char.isDigit
  let value := Nat.ofDigitChars 10 digits 0
  if digits = [] ∨ 2^64 ≤ value then none
  else some (if negative then -UInt64.ofNat value else UInt64.ofNat value)

theorem chars_ascii {text : List Char} (whole : text.all printable = true) : chars (ascii text) = text := by
  rw [chars,ascii,List.map_map]
  refine (List.map_congr_left (fun c member => ?_)).trans (List.map_id text)
  have code := (printable_code (List.all_eq_true.mp whole c member)).1
  rw [Function.comp_apply,code,Char.ofNat_toNat,id_eq]

theorem digit_decimal (n : Nat) : ∀ c ∈ decimal n, c.isDigit = true :=
  fun _ member => Nat.isDigit_of_mem_toDigits (by decide) (by decide) member

theorem digit_sixDigits (n : Nat) : ∀ c ∈ sixDigits n, c.isDigit = true := by
  intro c member
  rcases List.mem_append.mp member with zero | digit
  · rw [List.eq_of_mem_replicate zero]
    rfl
  · exact digit_decimal n c digit

theorem length_sixDigits (n : Nat) (bound : n < 10^6) : (sixDigits n).length = 6 := by
  have short : (decimal n).length ≤ 6 := (Nat.length_toDigits_le_iff (by decide) (by decide)).mpr bound
  rw [sixDigits,List.length_append,List.length_replicate]
  omega

theorem ofDigitChars_sixDigits (n : Nat) : Nat.ofDigitChars 10 (sixDigits n) 0 = n := by
  rw [sixDigits,Nat.ofDigitChars_append,Nat.ofDigitChars_replicate_zero,Nat.mul_zero,decimal,
    Nat.ofDigitChars_ten_toDigits]

theorem printable_seconds (us : Nat) : (seconds us).all printable = true := by
  have zeros : (List.replicate (6-(decimal (us % 10^6)).length) '0').all printable = true :=
    List.all_eq_true.mpr (fun c member => by rw [List.eq_of_mem_replicate member]; rfl)
  rw [seconds,sixDigits,List.all_append,List.all_cons,List.all_append,printable_decimal,printable_decimal,zeros]
  rfl

theorem stod_seconds (us : Nat) : stod (ascii (seconds us)) = some us := by
  have whole := digit_decimal (us / 10^6)
  have fraction := digit_sixDigits (us % 10^6)
  have length := length_sixDigits (us % 10^6) (Nat.mod_lt _ (by decide))
  have before : (seconds us).takeWhile Char.isDigit = decimal (us / 10^6) := by
    rw [seconds,List.takeWhile_append_of_pos whole,List.takeWhile_cons_of_neg (by decide),List.append_nil]
  have after : (seconds us).dropWhile Char.isDigit = '.'::sixDigits (us % 10^6) := by
    rw [seconds,List.dropWhile_append_of_pos whole,List.dropWhile_cons_of_neg (by decide)]
  have digits : (sixDigits (us % 10^6)).takeWhile Char.isDigit = sixDigits (us % 10^6) := by
    have all : (sixDigits (us % 10^6) ++ []).takeWhile Char.isDigit = sixDigits (us % 10^6) ++ [] :=
      List.takeWhile_append_of_pos fraction
    rwa [List.append_nil] at all
  have six : (sixDigits (us % 10^6) ++ List.replicate 6 '0').take 6 = sixDigits (us % 10^6) :=
    List.take_left' length
  simp only [stod,chars_ascii (printable_seconds us),before,after,digits]
  rw [if_neg (fun none => decimal_nonempty _ none.1),six,ofDigitChars_sixDigits,decimal,Nat.ofDigitChars_ten_toDigits]
  congr 1
  omega

theorem blank_digit {c : Char} (digit : c.isDigit = true) : blank c = false := by
  simp only [Char.isDigit,ge_iff_le,Bool.and_eq_true,decide_eq_true_eq,UInt32.le_iff_toNat_le] at digit
  have low : 48 ≤ c.toNat := digit.1
  have other : c ≠ ' ' := by
    rintro rfl
    exact absurd low (by decide)
  simp only [blank,other,decide_false,Bool.false_or,Bool.and_eq_false_iff,decide_eq_false_iff_not]
  omega

theorem sign_digit {c : Char} {text : List Char} (digit : c.isDigit = true) : sign (c::text) = (false,c::text) := by
  have minus : c ≠ '-' := by
    rintro rfl
    cases digit
  have plus : c ≠ '+' := by
    rintro rfl
    cases digit
  simp [sign,minus,plus]

theorem stoull_decimal (n : UInt64) : stoull (ascii (decimal n.toNat)) = some n := by
  have digits := digit_decimal n.toNat
  have all : (decimal n.toNat).takeWhile Char.isDigit = decimal n.toNat := List.takeWhile_eq_self_iff.mpr digits
  have unsigned : sign ((decimal n.toNat).dropWhile blank) = (false,decimal n.toNat) := by
    cases shape : decimal n.toNat with
    | nil => exact absurd shape (decimal_nonempty _)
    | cons c text =>
      have digit := digits c (shape ▸ List.mem_cons_self)
      rw [List.dropWhile_cons_of_neg (by rw [blank_digit digit]; exact Bool.false_ne_true),sign_digit digit]
  have value : Nat.ofDigitChars 10 (decimal n.toNat) 0 = n.toNat := Nat.ofDigitChars_ten_toDigits
  have fits : ¬ (decimal n.toNat = [] ∨ 2^64 ≤ n.toNat) :=
    not_or.mpr ⟨decimal_nonempty _,Nat.not_le.mpr n.toNat_lt⟩
  simp only [stoull,chars_ascii (printable_decimal _),unsigned,all,value,if_neg fits]
  simp

end Numbers

section Reading
variable {delim : UInt8}

/-- An injective renaming of the characters keeps the pieces. -/
theorem splitOn_map {α β : Type} [BEq α] [LawfulBEq α] [BEq β] [LawfulBEq β] {f : α → β} (injective : Function.Injective f)
    (delim : α) (text : List α) : (text.map f).splitOn (f delim) = (text.splitOn delim).map (List.map f) := by
  induction text with
  | nil => rfl
  | cons c text ih =>
    rw [List.map_cons,List.splitOn_cons_eq_if_modifyHead,List.splitOn_cons_eq_if_modifyHead,ih]
    by_cases here : c = delim
    · rw [here,if_pos BEq.rfl,if_pos BEq.rfl]
      rfl
    · have apart : f c ≠ f delim := fun same => here (injective same)
      rw [if_neg (fun same => here (eq_of_beq same)),if_neg (fun same => apart (eq_of_beq same))]
      cases text.splitOn delim <;> rfl

theorem not_mem_splitOn {text piece : List UInt8} (member : piece ∈ text.splitOn delim) : delim ∉ piece := by
  induction text generalizing piece with
  | nil =>
    obtain rfl := List.mem_singleton.mp member
    exact List.not_mem_nil
  | cons byte text ih =>
    rw [List.splitOn_cons_eq_if_modifyHead] at member
    split at member
    · rcases List.mem_cons.mp member with rfl | later
      · exact List.not_mem_nil
      · exact ih later
    · rename_i apart
      cases pieces : text.splitOn delim with
      | nil => exact absurd pieces (List.splitOn_ne_nil _ _)
      | cons first rest =>
        rw [pieces] at member ih
        rcases List.mem_cons.mp member with rfl | later
        · refine List.not_mem_cons_of_ne_of_not_mem (fun same => ?_) (ih List.mem_cons_self)
          exact apart (beq_iff_eq.mpr same.symm)
        · exact ih (List.mem_cons_of_mem _ later)

/-- The pieces that `getline` extracts until it fails; behind the last delimiter it finds
nothing. -/
def getlines (delim : UInt8) (text : List UInt8) : List (List UInt8) :=
  if (text.splitOn delim).getLast? = some [] then (text.splitOn delim).dropLast else text.splitOn delim

theorem splitOn_terminated {lines : List (List UInt8)} (clean : ∀ line ∈ lines, delim ∉ line) :
    (lines.flatMap (fun line => line ++ [delim])).splitOn delim = lines ++ [[]] := by
  induction lines with
  | nil => rfl
  | cons line rest ih =>
    rw [List.flatMap_cons,List.append_assoc,List.singleton_append,List.splitOn_append_cons_self,
      List.splitOn_eq_singleton (clean line List.mem_cons_self),
      ih (fun other member => clean other (List.mem_cons_of_mem _ member))]
    rfl

/-- Lines that each end with the delimiter come back. -/
theorem getlines_terminated {lines : List (List UInt8)} (clean : ∀ line ∈ lines, delim ∉ line) :
    getlines delim (lines.flatMap (fun line => line ++ [delim])) = lines := by
  rw [getlines,splitOn_terminated clean,List.getLast?_concat,if_pos rfl,List.dropLast_concat]

theorem mem_separated {fields : List (List UInt8)} {byte : UInt8} (member : byte ∈ [delim].intercalate fields) :
    byte = delim ∨ ∃ field ∈ fields, byte ∈ field := by
  induction fields with
  | nil => simp [List.intercalate] at member
  | cons field rest ih =>
    cases rest with
    | nil => exact .inr ⟨field,List.mem_cons_self,by simpa [List.intercalate] using member⟩
    | cons next others =>
      have split : [delim].intercalate (field::next::others) = field ++ delim::[delim].intercalate (next::others) := by
        simp [List.intercalate]
      rw [split,List.mem_append,List.mem_cons] at member
      rcases member with here | rfl | there
      · exact .inr ⟨field,List.mem_cons_self,here⟩
      · exact .inl rfl
      · rcases ih there with same | ⟨other,inside,found⟩
        · exact .inl same
        · exact .inr ⟨other,List.mem_cons_of_mem _ inside,found⟩

theorem getlines_separated {fields : List (List UInt8)} (clean : ∀ field ∈ fields, delim ∉ field)
    (ends : ∃ field, fields.getLast? = some field ∧ field ≠ []) :
    getlines delim ([delim].intercalate fields) = fields := by
  obtain ⟨field,last,nonempty⟩ := ends
  have some : fields ≠ [] := by
    rintro rfl
    cases last
  rw [getlines,List.splitOn_intercalate delim clean some,last,if_neg (fun empty => nonempty (Option.some.inj empty))]

end Reading

end AtlasNet.Foundation.Streams
