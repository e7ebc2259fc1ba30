import Mathlib.Data.List.Basic
import Rulebook.Proofs.Run.Places

namespace Rulebook

namespace Place

-- The same place under another path.
def moved (move : String → String) (place : Place) : Place :=
  { place with path := move place.path }

end Place

-- Two runs whose paths and errors correspond.
structure Simulates (run other : Run) (move : String → String) (g : FieldError → FieldError) :
    Prop where
  element : ∀ path index, other.elementPath (move path) index = move (run.elementPath path index)
  report : ∀ path name failure,
    other.resolve (move path) name failure = g (run.resolve path name failure)

namespace Check

-- A check that cannot tell the two runs apart.
structure Agrees (run other : Run) (move : String → String) (check : Check) : Prop where
  ordinary : check.IsOrdinary
  field : ∀ name ∈ check.fieldNames, ∀ path,
    move (path ++ "." ++ name) = move path ++ "." ++ name
  failure : ∀ value record path,
    check.failure? other value record (move path) = check.failure? run value record path

theorem places_moved {run other : Run} {move : String → String} {g : FieldError → FieldError}
    (h : Simulates run other move g) {check : Check} (hcheck : check.Agrees run other move)
    (value : Json) (path : String) :
    check.places other.indexed value (move path) =
      (check.places run.indexed value path).map (Place.moved move) := by
  cases check with
  | leaf | custom | foreign => rfl
  | object fields =>
      simp only [places, List.map_map]
      refine List.map_congr_left fun field hfield => ?_
      have hname := hcheck.field field.1 (List.mem_map_of_mem hfield) path
      simp only [Function.comp_apply, Place.moved, hname]
  | array min max element =>
      simp only [places]
      split
      · simp only [List.map_map]
        refine List.map_congr_left fun item _ => ?_
        have helement := h.element path item.2
        simp only [Run.elementPath] at helement
        simp only [Function.comp_apply, Place.moved, helement]
      · rfl

end Check

namespace Run

theorem ofParts_map (g : FieldError → FieldError) (errors : List FieldError) :
    ofParts (errors.map g) = (ofParts errors).map (List.map g) := by
  cases errors <;> rfl

theorem findSome?_getD_map {α : Type} {f f' : α → Option (List FieldError)}
    {g : FieldError → FieldError} {xs : List α} (h : ∀ x ∈ xs, f' x = (f x).map (List.map g)) :
    (xs.findSome? f').getD [] = ((xs.findSome? f).getD []).map g := by
  induction xs with
  | nil => rfl
  | cons x xs ih =>
      obtain ⟨hx, hxs⟩ := List.forall_mem_cons.mp h
      rw [List.findSome?_cons, List.findSome?_cons, hx]
      cases f x with
      | none => exact ih hxs
      | some errors => rfl

theorem check_moved {run other : Run} {move : String → String} {g : FieldError → FieldError}
    (h : Simulates run other move g) (name : String) (value record : Json) (path : String)
    {check : Check} (hcheck : check.Agrees run other move)
    (hinner : ∀ inner ∈ check.places run.indexed value path,
      other.place (inner.moved move) = (run.place inner).map g) :
    other.check name value record (move path) check =
      (run.check name value record path check).map (List.map g) := by
  rw [check_eq _ _ _ _ _ hcheck.ordinary, check_eq _ _ _ _ _ hcheck.ordinary, hcheck.failure]
  cases check.failure? run value record path with
  | some failure => simp only [h.report, Option.map_some, List.map_cons, List.map_nil]
  | none =>
      simp only [Check.places_moved h hcheck, List.flatMap_map, ← ofParts_map, List.map_flatMap]
      rw [List.flatMap_congr hinner]

-- Under checks that cannot tell two runs apart, the errors of the one are those of the
-- other, one by one.
theorem place_moved {run other : Run} {move : String → String} {g : FieldError → FieldError}
    (h : Simulates run other move g) (place : Place)
    (hrule : place.rule.Every (Check.Agrees run other move)) :
    other.place (place.moved move) = (run.place place).map g := by
  induction place using Place.induction run.indexed with
  | step place ih =>
      cases hskip : place.skipped with
      | true =>
          have hmoved : (place.moved move).skipped = true := hskip
          rw [place_eq, place_eq, hskip, hmoved]
          rfl
      | false =>
          have hmoved : (place.moved move).skipped = false := hskip
          rw [place_eq, place_eq, hskip, hmoved, if_neg Bool.false_ne_true,
            if_neg Bool.false_ne_true]
          refine findSome?_getD_map fun check hcheck => ?_
          refine check_moved h _ _ _ _ (hrule.here hcheck) fun inner hinner => ?_
          exact ih check hcheck inner hinner (hrule.inside hcheck (Check.rule_mem_parts hinner))

end Run

end Rulebook
