import Rulebook.Number.Basic

namespace Rulebook

-- JSON data. The members of an object keep their order, and no name occurs twice.
inductive Json
  | null
  | bool (b : Bool)
  | num (n : Number)
  | str (s : String)
  | arr (items : List Json)
  | obj (members : List (String × Json))
deriving Inhabited

-- Lists of named values, in the order in which the names first came.
namespace Members

def get? (name : String) : List (String × α) → Option α
  | [] => none
  | (key, value) :: rest => if key = name then some value else get? name rest

def has (name : String) (members : List (String × α)) : Bool :=
  (get? name members).isSome

-- A name that is there keeps its place and takes the new value.
def set (name : String) (value : α) : List (String × α) → List (String × α)
  | [] => [(name, value)]
  | (key, old) :: rest =>
      if key = name then (key, value) :: rest else (key, old) :: set name value rest

def ofList (entries : List (String × α)) : List (String × α) :=
  entries.foldl (fun members (name, value) => set name value members) []

theorem mem_of_get? {name : String} {value : α} {members : List (String × α)}
    (h : get? name members = some value) : (name, value) ∈ members := by
  induction members with
  | nil => simp [get?] at h
  | cons member rest ih =>
      obtain ⟨key, first⟩ := member
      simp only [get?] at h
      split at h
      · next heq =>
          obtain rfl := Option.some.inj h
          simp [heq]
      · exact List.mem_cons_of_mem _ (ih h)

end Members

namespace Json

def text (s : List Char) : Json :=
  str (String.ofList s)

def get? (name : String) : Json → Option Json
  | obj members => Members.get? name members
  | _ => none

-- The value of a field, where a missing one reads as null.
def field (record : Json) (name : String) : Json :=
  (record.get? name).getD null

def isNull : Json → Bool
  | null => true
  | _ => false

def isObject : Json → Bool
  | obj _ => true
  | _ => false

def string? : Json → Option String
  | str s => some s
  | _ => none

-- The value of a name that is there and is not null.
def present? (name : String) (members : List (String × Json)) : Option Json :=
  (Members.get? name members).filter (!·.isNull)

-- Equality of data: the order of the members of an object does not count, and
-- numbers are equal within one kind only.
mutual

def same : Json → Json → Bool
  | null, null => true
  | bool a, bool b => a == b
  | num a, num b => a.same b
  | str a, str b => a == b
  | arr xs, arr ys => sameItems xs ys
  | obj xs, obj ys => xs.length == ys.length && sameMembers xs ys
  | _, _ => false

def sameItems : List Json → List Json → Bool
  | [], [] => true
  | x :: xs, y :: ys => same x y && sameItems xs ys
  | _, _ => false

-- Every member on the left has an equal one of its name on the right.
def sameMembers : List (String × Json) → List (String × Json) → Bool
  | [], _ => true
  | (name, x) :: xs, ys =>
      (match Members.get? name ys with
        | some y => same x y
        | none => false) && sameMembers xs ys

end

-- The nesting depth: scalars have none, arrays and objects are one deeper than
-- their deepest part.
mutual

def depth : Json → Nat
  | arr items => depthItems items + 1
  | obj members => depthMembers members + 1
  | _ => 0

def depthItems : List Json → Nat
  | [] => 0
  | x :: xs => max x.depth (depthItems xs)

def depthMembers : List (String × Json) → Nat
  | [] => 0
  | (_, x) :: xs => max x.depth (depthMembers xs)

end

theorem depth_le_of_mem {member : String × Json} {members : List (String × Json)}
    (h : member ∈ members) : member.2.depth ≤ depthMembers members := by
  induction members with
  | nil => cases h
  | cons first rest ih =>
      rw [depthMembers]
      rcases List.mem_cons.mp h with rfl | hrest
      · exact Nat.le_max_left ..
      · exact Nat.le_trans (ih hrest) (Nat.le_max_right ..)

theorem depth_le_depthMembers {name : String} {value : Json} {members : List (String × Json)}
    (h : Members.get? name members = some value) : value.depth ≤ depthMembers members :=
  depth_le_of_mem (Members.mem_of_get? h)

end Json

end Rulebook
