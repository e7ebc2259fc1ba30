import Rulebook.Proofs.Json.Same
import Rulebook.Proofs.Run.Places

namespace Rulebook

open Json

theorem textOf_alike {value other : Json} (hvalue : Alike value other) (allowEmpty : Bool) :
    textOf allowEmpty other = textOf allowEmpty value := by
  cases same_iff.mp hvalue.left <;> rfl

theorem Limits.broken_of_units_eq {x y : Binary64} (h : x.units = y.units) (limits : Limits) :
    limits.broken y = limits.broken x := by
  simp only [broken, Binary64.lt, h]

namespace Password

-- A text is not equal to a field that is not there.
theorem brokenCompare_str (p : Password) (s : String) (record : Json) :
    p.brokenCompare (.str s) record =
      p.compare.bind fun name =>
        if (record.field name).same (.str s) then none
        else some (.invalid "should equal to %s" [name]) := by
  obtain ⟨charset, compare⟩ := p
  cases compare with
  | none => rfl
  | some name =>
      have hfield : (record.get? name).any (·.same (.str s)) =
          (record.field name).same (.str s) := by
        rw [field]
        cases record.get? name <;> rfl
      simp only [brokenCompare, hfield, Option.bind_some]

end Password

namespace Leaf

-- The field of the record that a check compares a value with.
def compared : Leaf → Option String
  | password p => p.compare
  | _ => none

section

variable {value other : Json} (hvalue : Alike value other)

include hvalue

theorem isAccepted_alike : isAccepted other = isAccepted value := by
  cases same_iff.mp hvalue.left with
  | @num a b hsame =>
      simp only [isAccepted, Binary64.same, Number.units_eq_of_same hsame]
  | _ => rfl

theorem digitsOf_alike (count : Nat) : digitsOf count other = digitsOf count value := by
  simp only [digitsOf, hvalue.scalarText_eq]

-- Equal values are equal to the same allowed ones. Numbers have a rule of their own.
theorem allows_alike (allowed : Json) : allows allowed other = allows allowed value := by
  have hsame := hvalue.same_left allowed
  cases same_iff.mp hvalue.left with
  | @num a b hab =>
      cases allowed with
      | num n =>
          simp only [Json.same] at hsame
          simp only [allows, hsame, Binary64.same, Number.units_eq_of_same hab]
      | _ => rfl
  | _ => cases allowed <;> exact hsame.symm

-- The catalogue cannot tell equal values apart, in records that are equal where a check
-- compares.
theorem verdict_alike (leaf : Leaf) {record record' : Json}
    (hcompared : ∀ name ∈ leaf.compared, Alike (record.field name) (record'.field name))
    (root root' : Json) (path : String) :
    leaf.verdict other ⟨record', root', path⟩ = leaf.verdict value ⟨record, root, path⟩ := by
  cases leaf with
  | required => simp only [verdict, hvalue.isBlank_eq]
  | accepted => simp only [verdict, isAccepted_alike hvalue]
  | alpha | phone => simp only [verdict, hvalue.scalarText_eq]
  | numeric count | captcha count => simp only [verdict, digitsOf_alike hvalue]
  | text name rules => simp only [verdict, TextRules.verdict, textOf_alike hvalue]
  | url allowEmpty => simp only [verdict, textOf_alike hvalue]
  | boolean => simp only [verdict, hvalue.kind_eq]
  | enum allowed => simp only [verdict, allows_alike hvalue]
  | int limits | number limits =>
      cases same_iff.mp hvalue.left with
      | @num a b hsame =>
          have hbroken := limits.broken_of_units_eq (Number.units_eq_of_same hsame)
          simp only [verdict, Json.number?, Json.isInteger, Number.isInteger_eq_of_same hsame,
            hbroken]
      | _ => rfl
  | password p =>
      cases same_iff.mp hvalue.left with
      | str s =>
          have hcompare : p.brokenCompare (.str s) record' = p.brokenCompare (.str s) record := by
            rw [Password.brokenCompare_str, Password.brokenCompare_str]
            refine Option.bind_congr fun name hname => ?_
            rw [(hcompared name hname).same_right]
          simp only [verdict, Password.verdict, hcompare]
      | _ => rfl

end

end Leaf

namespace Check

def compared : Check → Option String
  | leaf check => check.compared
  | _ => none

theorem IsBuiltin.failure?_alike {check : Check} (hcheck : check.IsBuiltin)
    {value other record record' : Json} (hvalue : Alike value other)
    (hcompared : ∀ name ∈ check.compared, Alike (record.field name) (record'.field name))
    (run run' : Run) (path : String) :
    check.failure? run' other record' path = check.failure? run value record path := by
  cases check with
  | leaf leaf => rw [failure?, failure?, leaf.verdict_alike hvalue hcompared run.root]
  | custom | foreign => exact False.elim hcheck
  | object fields => simp only [failure?, hvalue.isObject_eq]
  | array min max element =>
      cases same_iff.mp hvalue.left with
      | arr hitems => simp only [failure?, hitems.length_eq]
      | _ => rfl

end Check

namespace RuleOf

-- The fields of the record that the checks of a rule compare its value with.
def compared (rule : Rule) : List String :=
  rule.checks.filterMap (·.2.compared)

end RuleOf

-- Two places that differ in nothing that the catalogue looks at.
structure Place.Agrees (place other : Place) : Prop where
  rule : other.rule = place.rule
  path : other.path = place.path
  value : Alike place.value other.value
  compared : ∀ name ∈ place.rule.compared,
    Alike (place.record.field name) (other.record.field name)

theorem zipIdx_forall₂ {α β : Type} {R : α → β → Prop} {xs : List α} {ys : List β}
    (h : List.Forall₂ R xs ys) (start : Nat) :
    List.Forall₂ (fun x y => R x.1 y.1 ∧ y.2 = x.2) (xs.zipIdx start) (ys.zipIdx start) := by
  induction h generalizing start with
  | nil => exact .nil
  | cons hhead _ ih => exact .cons ⟨hhead, rfl⟩ (ih (start + 1))

-- Equal values have places inside that agree: the same fields, and equal elements.
theorem Check.places_alike {value other : Json} (hvalue : Alike value other) (indexed : Bool)
    (path : String) (check : Check) :
    List.Forall₂ Place.Agrees (check.places indexed value path)
      (check.places indexed other path) := by
  cases check with
  | leaf | custom | foreign => exact .nil
  | object fields =>
      simp only [places, List.forall₂_map_left_iff, List.forall₂_map_right_iff,
        List.forall₂_same]
      exact fun field _ => ⟨rfl, rfl, hvalue.field _, fun name _ => hvalue.field name⟩
  | array min max element =>
      cases element with
      | none => exact .nil
      | some element =>
          cases same_iff.mp hvalue.left with
          | arr _ =>
              simp only [places, List.forall₂_map_left_iff, List.forall₂_map_right_iff]
              refine (zipIdx_forall₂ hvalue.items 0).imp fun item item' h => ?_
              obtain ⟨hitem, hindex⟩ := h
              exact ⟨rfl, by simp only [hindex], hitem, fun _ _ => ⟨rfl, rfl⟩⟩
          | _ => exact .nil

namespace Run

theorem flatMap_congr_forall₂ {α β : Type} {R : α → β → Prop} {xs : List α} {ys : List β}
    {f : α → List FieldError} {g : β → List FieldError} (h : List.Forall₂ R xs ys)
    (hfg : ∀ x ∈ xs, ∀ y, R x y → g y = f x) : ys.flatMap g = xs.flatMap f := by
  induction h with
  | nil => rfl
  | cons hhead _ ih =>
      obtain ⟨hx, hxs⟩ := List.forall_mem_cons.mp hfg
      rw [List.flatMap_cons, List.flatMap_cons, hx _ hhead, ih hxs]

theorem findSome?_congr {α β : Type} {xs : List α} {f g : α → Option β}
    (h : ∀ x ∈ xs, f x = g x) : xs.findSome? f = xs.findSome? g := by
  induction xs with
  | nil => rfl
  | cons x xs ih =>
      obtain ⟨hx, hxs⟩ := List.forall_mem_cons.mp h
      rw [List.findSome?_cons, List.findSome?_cons, hx, ih hxs]

-- From places that agree, two runs over different records report the same.
theorem place_agrees (run : Run) (root : Json) {place other : Place}
    (hrule : place.rule.Every Check.IsBuiltin) (hagrees : place.Agrees other) :
    ({ run with root } : Run).place other = run.place place := by
  induction place using Place.induction run.indexed generalizing other with
  | step place ih =>
      obtain ⟨rule, value, record, path⟩ := place
      obtain ⟨rule', value', record', path'⟩ := other
      obtain ⟨rfl, rfl, hvalue, hcompared⟩ := hagrees
      have hskip : Place.skipped ⟨rule', value', record', path'⟩ =
          Place.skipped ⟨rule', value, record, path'⟩ := by
        simp only [Place.skipped, hvalue.isNull_eq]
      rw [place_eq, place_eq, hskip]
      congr 2
      refine findSome?_congr fun check hcheck => ?_
      have hbuiltin := hrule.here hcheck
      have hsiblings : ∀ name ∈ check.2.compared,
          Alike (record.field name) (record'.field name) :=
        fun name hname => hcompared name (List.mem_filterMap.mpr ⟨check, hcheck, hname⟩)
      rw [check_eq _ _ _ _ _ hbuiltin.isOrdinary, check_eq _ _ _ _ _ hbuiltin.isOrdinary,
        hbuiltin.failure?_alike hvalue hsiblings run { run with root }]
      have hinner := flatMap_congr_forall₂ (check.2.places_alike hvalue run.indexed path')
        fun inner hinner inner' h => ih check hcheck inner hinner
          (hrule.inside hcheck (Check.rule_mem_parts hinner)) h
      simp only [hinner]

end Run

end Rulebook
