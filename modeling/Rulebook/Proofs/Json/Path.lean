import Mathlib.Data.List.Basic
import Rulebook.Json.Basic
import Rulebook.Proofs.Text.Digits

namespace Rulebook

-- A step into a value: to a field of a record or to an element of an array.
inductive Step
  | field (name : String)
  | index (i : Nat)
deriving DecidableEq

namespace Json

-- A step to what is not there leads to null.
def step (value : Json) : Step → Json
  | .field name => value.field name
  | .index i =>
      match value with
      | arr items => items[i]?.getD null
      | _ => null

def follow (value : Json) (steps : List Step) : Json :=
  steps.foldl step value

theorem follow_append_singleton (value : Json) (steps : List Step) (last : Step) :
    value.follow (steps ++ [last]) = (value.follow steps).step last := by
  rw [follow, follow, List.foldl_append, List.foldl_cons, List.foldl_nil]

end Json

namespace Path

-- What stands between two dots: the name of a field, and the indices after it, each
-- of them in brackets.
def segment (cs : List Char) : List Step :=
  match cs.splitOn '[' with
  | [] => []
  | name :: indices =>
      .field (String.ofList name) ::
        indices.map fun rest => .index (Text.natOfDigits (rest.takeWhile Char.isDigit))

def decode (path : String) : List Step :=
  (path.toList.splitOn '.').flatMap segment

-- A name that cannot be taken for two steps.
def IsPlain (name : String) : Prop :=
  '.' ∉ name.toList ∧ '[' ∉ name.toList

-- Text without the separator only makes the last piece longer.
theorem splitOn_append_of_notMem {sep : Char} {suffix : List Char} (hsuffix : sep ∉ suffix)
    (cs : List Char) :
    ∃ front last, cs.splitOn sep = front ++ [last] ∧
      (cs ++ suffix).splitOn sep = front ++ [last ++ suffix] := by
  induction cs with
  | nil => exact ⟨[], [], List.splitOn_nil sep, List.splitOn_eq_singleton hsuffix⟩
  | cons c cs ih =>
      obtain ⟨front, last, hpieces, hlonger⟩ := ih
      rw [List.cons_append, List.splitOn_cons_eq_if_modifyHead,
        List.splitOn_cons_eq_if_modifyHead, hpieces, hlonger]
      by_cases hsep : c = sep
      · exact ⟨[] :: front, last, by simp [hsep]⟩
      · cases front with
        | nil => exact ⟨[], c :: last, by simp [hsep]⟩
        | cons first front => exact ⟨(c :: first) :: front, last, by simp [hsep]⟩

theorem takeWhile_natDigits (i : Nat) :
    (Text.natDigits i ++ [']']).takeWhile Char.isDigit = Text.natDigits i := by
  rw [List.takeWhile_append_of_pos fun _ => Text.isDigit_of_mem_natDigits]
  simp

theorem segment_plain {cs : List Char} (h : '[' ∉ cs) :
    segment cs = [.field (String.ofList cs)] := by
  simp only [segment, List.splitOn_eq_singleton h, List.map_nil]

theorem segment_append_index (cs : List Char) (i : Nat) :
    segment (cs ++ '[' :: (Text.natDigits i ++ [']'])) = segment cs ++ [.index i] := by
  have hindex : '[' ∉ Text.natDigits i ++ [']'] := by
    simp [Text.notMem_natDigits (c := '[') (by decide) i]
  have hcs := List.splitOn_ne_nil '[' cs
  unfold segment
  rw [List.splitOn_append_cons_self, List.splitOn_eq_singleton hindex]
  cases hpieces : cs.splitOn '[' with
  | nil => exact False.elim (hcs hpieces)
  | cons name indices =>
      simp only [List.cons_append, List.map_append, List.map_cons, List.map_nil,
        takeWhile_natDigits, Text.natOfDigits_natDigits]

theorem decode_plain {name : String} (h : IsPlain name) : decode name = [.field name] := by
  rw [decode, List.splitOn_eq_singleton h.1, List.flatMap_singleton, segment_plain h.2,
    String.ofList_toList]

theorem decode_field (path : String) {name : String} (h : IsPlain name) :
    decode (path ++ "." ++ name) = decode path ++ [.field name] := by
  have htext : (path ++ "." ++ name).toList = path.toList ++ '.' :: name.toList := by simp
  rw [decode, htext, List.splitOn_append_cons_self, List.flatMap_append,
    ← decode, ← decode, decode_plain h]

theorem decode_index (path : String) (i : Nat) :
    decode (path ++ "[" ++ Text.natText i ++ "]") = decode path ++ [.index i] := by
  have htext : (path ++ "[" ++ Text.natText i ++ "]").toList =
      path.toList ++ '[' :: (Text.natDigits i ++ [']']) := by simp [Text.natText]
  have hdot : '.' ∉ '[' :: (Text.natDigits i ++ [']']) := by
    simp [Text.notMem_natDigits (c := '.') (by decide) i]
  obtain ⟨front, last, hpieces, hlonger⟩ := splitOn_append_of_notMem hdot path.toList
  rw [decode, decode, htext, hpieces, hlonger, List.flatMap_append, List.flatMap_append,
    List.flatMap_singleton, List.flatMap_singleton, segment_append_index, List.append_assoc]

-- What follows digits and the bracket that closes them.
def afterDigits? : List Char → Option (List Char)
  | [] => none
  | c :: cs => if c = ']' then some cs else if c.isDigit then afterDigits? cs else none

-- The text behind an opening bracket, without the index that begins there, or with the
-- bracket if none does.
def dropIndex : List Char → List Char
  | [] => ['[']
  | c :: cs =>
      if c.isDigit then (afterDigits? cs).getD ('[' :: c :: cs) else '[' :: c :: cs

-- The path with every index left out that it has in brackets.
def withoutIndices (path : String) : String :=
  match path.toList.splitOn '[' with
  | [] => ""
  | name :: pieces => String.ofList (name ++ pieces.flatMap dropIndex)

theorem afterDigits?_append {cs : List Char} (hdigits : ∀ c ∈ cs, c.isDigit = true)
    (rest : List Char) : afterDigits? (cs ++ ']' :: rest) = some rest := by
  induction cs with
  | nil => rfl
  | cons c cs ih =>
      obtain ⟨hc, hcs⟩ := List.forall_mem_cons.mp hdigits
      have hclose : c ≠ ']' := by
        rintro rfl
        cases hc
      simp only [List.cons_append, afterDigits?, hclose, hc, if_true, if_false, ih hcs]

theorem afterDigits?_append_dot (cs rest : List Char) :
    afterDigits? (cs ++ '.' :: rest) = (afterDigits? cs).map (· ++ '.' :: rest) := by
  induction cs with
  | nil => rfl
  | cons c cs ih =>
      simp only [List.cons_append, afterDigits?, ih]
      split
      · rfl
      · split <;> rfl

theorem dropIndex_append_dot (cs rest : List Char) :
    dropIndex (cs ++ '.' :: rest) = dropIndex cs ++ '.' :: rest := by
  cases cs with
  | nil => rfl
  | cons c cs =>
      simp only [List.cons_append, dropIndex, afterDigits?_append_dot]
      split
      · cases afterDigits? cs <;> rfl
      · rfl

theorem dropIndex_natDigits (i : Nat) : dropIndex (Text.natDigits i ++ [']']) = [] := by
  obtain ⟨hne, hdigits⟩ := Text.isDigitRun_iff.mp (Text.isDigitRun_natDigits i)
  cases hcs : Text.natDigits i with
  | nil => exact False.elim (hne hcs)
  | cons c cs =>
      rw [hcs] at hdigits
      obtain ⟨hc, hrest⟩ := List.forall_mem_cons.mp hdigits
      simp only [List.cons_append, dropIndex, hc, if_true, afterDigits?_append hrest,
        Option.getD_some]

-- The index of an element is left out, whatever stands before it.
theorem withoutIndices_index (path : String) (i : Nat) :
    withoutIndices (path ++ "[" ++ Text.natText i ++ "]") = withoutIndices path := by
  have htext : (path ++ "[" ++ Text.natText i ++ "]").toList =
      path.toList ++ '[' :: (Text.natDigits i ++ [']']) := by simp [Text.natText]
  have hindex : '[' ∉ Text.natDigits i ++ [']'] := by
    simp [Text.notMem_natDigits (c := '[') (by decide) i]
  have hpath := List.splitOn_ne_nil '[' path.toList
  rw [withoutIndices, withoutIndices, htext, List.splitOn_append_cons_self,
    List.splitOn_eq_singleton hindex]
  cases hpieces : path.toList.splitOn '[' with
  | nil => exact False.elim (hpath hpieces)
  | cons name pieces =>
      simp only [List.cons_append, List.flatMap_append, List.flatMap_singleton,
        dropIndex_natDigits, List.append_nil]

theorem withoutIndices_field (path : String) {name : String} (hname : '[' ∉ name.toList) :
    withoutIndices (path ++ "." ++ name) = withoutIndices path ++ "." ++ name := by
  have htext : (path ++ "." ++ name).toList = path.toList ++ '.' :: name.toList := by simp
  have hsuffix : '[' ∉ '.' :: name.toList := by simp [hname]
  obtain ⟨front, last, hpieces, hlonger⟩ := splitOn_append_of_notMem hsuffix path.toList
  rw [withoutIndices, withoutIndices, htext, hpieces, hlonger]
  cases front with
  | nil =>
      apply String.toList_injective
      simp
  | cons first front =>
      apply String.toList_injective
      simp [dropIndex_append_dot]

theorem withoutIndices_plain {name : String} (hname : '[' ∉ name.toList) :
    withoutIndices name = name := by
  rw [withoutIndices, List.splitOn_eq_singleton hname]
  simp

end Path

end Rulebook
