import Rulebook.Proofs.Rule.Asked
import Rulebook.Proofs.Run.Places

namespace Rulebook

namespace Run

-- The places that are validated for a check that asks at a path: the fields of an object, or
-- the items of a list, as if they were inside the value at that path.
def fieldPlaces (run : Run) (path : String) (fields : List (String × Rule)) (value : Json) :
    List Place :=
  (Check.object (some fields)).places run.indexed value path

def itemPlaces (run : Run) (path : String) (rule : Rule) (items : List Json) : List Place :=
  (Check.array none none (some rule)).places run.indexed (.arr items) path

variable {α : Type}

theorem fields_eq_places (run : Run) (path : String) (fields : List (String × Rule))
    (value : Json) :
    run.fields value (some path) fields =
      (run.fieldPlaces path fields value).flatMap run.place := by
  simp only [fields_eq, fieldPath_some, fieldPlaces, Check.places, Option.getD_some,
    List.flatMap_map]

theorem items_eq_places (run : Run) (path : String) (rule : Rule) (items : List Json) :
    (items.zipIdx.flatMap fun (item, index) =>
        run.rule item .null (run.elementPath path index) rule) =
      (run.itemPlaces path rule items).flatMap run.place := by
  simp only [itemPlaces, Check.places, List.flatMap_map, Run.place, elementPath]

-- A check that asks goes on with the errors of the places that it asks about.
theorem passes_object (run : Run) (path : String) (fields : List (String × Rule)) (value : Json)
    (next : List FieldError → Inquiry Check Bool) :
    run.passes path (.object fields value next) =
      run.passes path (next ((run.fieldPlaces path fields value).flatMap run.place)) := by
  rw [passes, fields_eq_places]

theorem passes_items (run : Run) (path : String) (rule : Rule) (items : List Json)
    (next : List FieldError → Inquiry Check Bool) :
    run.passes path (.items rule items next) =
      run.passes path (next ((run.itemPlaces path rule items).flatMap run.place)) := by
  rw [passes, items_eq_places]

theorem verdict_object (run : Run) (path : String) (fields : List (String × Rule)) (value : Json)
    (next : List FieldError → Inquiry Check Verdict) :
    run.verdict path (.object fields value next) =
      run.verdict path (next ((run.fieldPlaces path fields value).flatMap run.place)) := by
  rw [verdict, fields_eq_places]

theorem verdict_items (run : Run) (path : String) (rule : Rule) (items : List Json)
    (next : List FieldError → Inquiry Check Verdict) :
    run.verdict path (.items rule items next) =
      run.verdict path (next ((run.itemPlaces path rule items).flatMap run.place)) := by
  rw [verdict, items_eq_places]

-- The places that are validated for an inquiry, one list each time it asks.
def consulted (run : Run) (path : String) : Inquiry Check α → List (List Place)
  | .answer _ => []
  | .object fields value next =>
      let places := run.fieldPlaces path fields value
      places :: run.consulted path (next (places.flatMap run.place))
  | .items rule items next =>
      let places := run.itemPlaces path rule items
      places :: run.consulted path (next (places.flatMap run.place))

-- The places that a check of a user has validated when its turn comes at a place.
def consults (run : Run) (place : Place) : Check → List (List Place)
  | .custom _ matcher options _ _ =>
      run.consulted place.path
        (matcher.inquiry options place.value ⟨place.record, run.root, place.path⟩)
  | .foreign _ answer =>
      run.consulted place.path (answer place.value ⟨place.record, run.root, place.path⟩)
  | _ => []

theorem asks_of_mem_consulted {run : Run} {path : String} {inquiry : Inquiry Check α}
    {places : List Place} {place : Place} (hplaces : places ∈ run.consulted path inquiry)
    (hplace : place ∈ places) : inquiry.Asks place.rule := by
  induction inquiry with
  | answer a => simp [consulted] at hplaces
  | object fields value next ih =>
      rcases List.mem_cons.mp hplaces with rfl | hlater
      · obtain ⟨field, hfield, rfl⟩ := List.mem_map.mp hplace
        exact .field hfield
      · exact .afterObject _ (ih _ hlater)
  | items rule items next ih =>
      rcases List.mem_cons.mp hplaces with rfl | hlater
      · obtain ⟨item, -, rfl⟩ := List.mem_map.mp hplace
        exact .item
      · exact .afterItems _ (ih _ hlater)

-- Only rules that a check brings with it are tried for it.
theorem asks_of_mem_consults {run : Run} {place inner : Place} {check : Check}
    {places : List Place} (hplaces : places ∈ run.consults place check)
    (hinner : inner ∈ places) : check.Asks inner.rule := by
  cases check with
  | leaf | object | array => simp [consults] at hplaces
  | custom name matcher options message code =>
      cases matcher with
      | pattern p => simp [consults, MatcherOf.inquiry, consulted] at hplaces
      | predicate holds => exact ⟨_, _, asks_of_mem_consulted hplaces hinner⟩
  | foreign name answer => exact ⟨_, _, asks_of_mem_consulted hplaces hinner⟩

end Run

end Rulebook
