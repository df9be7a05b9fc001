import AtlasNet.Foundation.Dictionary

/-! JSON values with the document paths of a JSON store: reading and changing
the place a path names, and the members of an array that a filter selects. -/
namespace AtlasNet.Foundation

inductive Json
  | null
  | bool (value : Bool)
  | num (value : Int)
  | str (value : String)
  | arr (items : List Json)
  | obj (fields : List (String × Json))

namespace Json

abbrev Fields := Entries String Json

inductive Segment
  | field (name : String)
  | index (i : Nat)
deriving DecidableEq

abbrev Path := List Segment

def member (name : String) : Json → Option Json
  | .obj fields => Entries.get name fields
  | _ => none

/-- The values below a container, over which a filter expression ranges. -/
def children : Json → List Json
  | .arr items => items
  | .obj fields => fields.map (·.2)
  | _ => []

def get : Path → Json → Option Json
  | [],json => some json
  | .field name::rest,json => (member name json).bind (get rest)
  | .index i::rest,.arr items => items[i]?.bind (get rest)
  | .index _::_,_ => none

/-- The document after the value at the path is changed; `none` when the path
names no place. Only the last member name of a path may be new. -/
def change (f : Option Json → Option Json) : Path → Json → Option Json
  | [],json => f (some json)
  | .field name::rest,.obj fields =>
    match Entries.get name fields with
    | some inner => (change f rest inner).map (fun value => .obj (Entries.put name value fields))
    | none => if rest = [] then (f none).map (fun value => .obj (Entries.put name value fields)) else none
  | .index i::rest,.arr items =>
    match items[i]? with
    | some inner => (change f rest inner).map (fun value => .arr (items.set i value))
    | none => none
  | _,_ => none

/-- Whether the member named `name` is the number `value`: `@.name == value`. -/
def hasNumber (name : String) (value : Int) (json : Json) : Bool :=
  match member name json with
  | some (.num n) => n == value
  | _ => false

/-- Whether the member named `name` is the text `value`: `@.name=='value'`. -/
def hasText (name value : String) (json : Json) : Bool :=
  match member name json with
  | some (.str text) => text == value
  | _ => false

def isNull : Json → Bool
  | .null => true
  | _ => false

def escape (c : Char) : List Char :=
  if c = '\x22' then ['\x5c','\x22']
  else if c = '\x5c' then ['\x5c','\x5c']
  else if c.toNat < 32 then
    ['\x5c','u','0','0',Nat.digitChar (c.toNat / 16),Nat.digitChar (c.toNat % 16)]
  else [c]

def quoted (value : String) : List Char := '\x22'::value.toList.flatMap escape ++ ['\x22']

mutual
/-- The text of a document without blanks. -/
def text : Json → List Char
  | .null => ['n','u','l','l']
  | .bool true => ['t','r','u','e']
  | .bool false => ['f','a','l','s','e']
  | .num value => (toString value).toList
  | .str value => quoted value
  | .arr items => '['::textItems items ++ [']']
  | .obj fields => '\x7b'::textFields fields ++ ['\x7d']
def textItems : List Json → List Char
  | [] => []
  | [item] => text item
  | item::rest => text item ++ ','::textItems rest
def textFields : List (String × Json) → List Char
  | [] => []
  | [(name,value)] => quoted name ++ ':'::text value
  | (name,value)::rest => quoted name ++ ':'::text value ++ ','::textFields rest
end

@[simp] theorem member_obj (name : String) (fields : Fields) :
    member name (.obj fields) = Entries.get name fields := rfl

/-- The reply to a filter query is longer than `[]` exactly when an object was selected. -/
theorem text_selected (fields : Fields) (rest : List Json) :
    2 < (text (.arr (.obj fields::rest))).length := by
  cases rest with
  | nil => simp [text,textItems]
  | cons other rest =>
    simp only [text,textItems,List.cons_append,List.length_cons,List.length_append]
    omega

theorem text_empty : (text (.arr [])).length = 2 := rfl

end Json

end AtlasNet.Foundation
