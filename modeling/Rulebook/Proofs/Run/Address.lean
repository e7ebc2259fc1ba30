import Mathlib.Data.List.Nodup
import Rulebook.Proofs.Compile.Outcome
import Rulebook.Proofs.Json.Path
import Rulebook.Proofs.Run.Agreement
import Rulebook.Proofs.Run.Findings

namespace Rulebook

-- The steps that a path spells out.
def Place.address (place : Place) : List Step :=
  Path.decode place.path

def Finding.address (finding : Finding) : List Step :=
  finding.place.address

-- A check whose fields are told apart by their names, and their names by their paths.
structure Check.Addressable (check : Check) : Prop where
  plain : ∀ name ∈ check.fieldNames, Path.IsPlain name
  distinct : check.fieldNames.Nodup

-- Places one step inside a value, each by a step of its own.
structure Siblings (base : List Step) (value : Json) (steps : List Step) (places : List Place) :
    Prop where
  distinct : steps.Nodup
  reached : List.Forall₂
    (fun step place => place.address = base ++ [step] ∧ place.value = value.step step) steps places

namespace Siblings

theorem of_fields {base : List Step} {fields : List (String × Rule)} (value : Json)
    (pathOf : String → String) (hdistinct : (fields.map (·.1)).Nodup)
    (hpath : ∀ name ∈ fields.map (·.1), Path.decode (pathOf name) = base ++ [.field name]) :
    Siblings base value (fields.map fun field => .field field.1)
      (fields.map fun (name, rule) => ⟨rule, value.field name, value, pathOf name⟩) where
  distinct := by
    have hinjective : Function.Injective Step.field := fun _ _ h => Step.field.inj h
    have hsteps := List.Nodup.map hinjective hdistinct
    rwa [List.map_map] at hsteps
  reached := by
    rw [List.forall₂_map_left_iff, List.forall₂_map_right_iff, List.forall₂_same]
    intro field hfield
    exact ⟨hpath field.1 (List.mem_map_of_mem hfield), rfl⟩

theorem of_items (path : String) (items : List Json) (rule : Rule) :
    Siblings (Path.decode path) (.arr items) (items.zipIdx.map fun item => .index item.2)
      (items.zipIdx.map fun (item, index) =>
        ⟨rule, item, .null, path ++ "[" ++ Text.natText index ++ "]"⟩) where
  distinct := by
    have hinjective : Function.Injective Step.index := fun _ _ h => Step.index.inj h
    have hindices : (items.zipIdx.map (·.2)).Nodup := by
      rw [List.zipIdx_map_snd]
      exact List.nodup_range'
    have hsteps := List.Nodup.map hinjective hindices
    rwa [List.map_map] at hsteps
  reached := by
    rw [List.forall₂_map_left_iff, List.forall₂_map_right_iff, List.forall₂_same]
    intro item hitem
    refine ⟨Path.decode_index path item.2, ?_⟩
    have hget : items[item.2]? = some item.1 := List.mem_zipIdx_iff_getElem?.mp hitem
    simp only [Json.step, hget, Option.getD_some]

end Siblings

theorem Place.inner_siblings {check : Check} (hcheck : check.Addressable) (place : Place) :
    ∃ steps, Siblings place.address place.value steps (place.inner true check) := by
  cases check with
  | leaf | custom | foreign => exact ⟨[], .nil, .nil⟩
  | object fields =>
      refine ⟨_, .of_fields place.value (place.path ++ "." ++ ·) hcheck.distinct ?_⟩
      intro name hname
      exact Path.decode_field place.path (hcheck.plain name hname)
  | array min max element =>
      obtain ⟨rule, value, record, path⟩ := place
      cases element with
      | none => exact ⟨[], .nil, .nil⟩
      | some element =>
          cases value with
          | arr items => exact ⟨_, .of_items path items element⟩
          | null | bool b | num n | str s | obj members => exact ⟨[], .nil, .nil⟩

-- What is reached from a place lies behind its address, and its own address leads to it.
theorem Reaches.addressed {place final : Place} (hreach : Reaches true place final)
    (hrule : place.rule.Every Check.Addressable) :
    place.address <+: final.address ∧
      ∀ root : Json, root.follow place.address = place.value →
        root.follow final.address = final.value := by
  induction hreach with
  | here => exact ⟨List.prefix_rfl, fun _ hvalue => hvalue⟩
  | @inside place inner final check hskip hcheck hinner hrest ih =>
      obtain ⟨steps, -, hreached⟩ := place.inner_siblings (hrule.here hcheck)
      obtain ⟨step, -, haddress, hvalue⟩ := Outcome.exists_of_mem_right hreached hinner
      obtain ⟨hbelow, hfollow⟩ := ih (hrule.inside hcheck (Place.rule_mem_parts hinner))
      refine ⟨(List.prefix_append _ [step]).trans (haddress ▸ hbelow), fun root hroot => ?_⟩
      refine hfollow root ?_
      rw [haddress, Json.follow_append_singleton, hroot, hvalue]

-- A check of the place fails by itself, for the reason that was found.
structure Finding.Rejects (run : Run) (finding : Finding) : Prop where
  asked : finding.place.skipped = false
  failed : ∃ check, (finding.check, check) ∈ finding.place.rule.checks ∧
    finding.place.failure? run check = some finding.failure

mutual

theorem Contributes.rejects {run : Run} {place : Place}
    {findings : List Finding} :
    Contributes (.findings run) place findings →
      ∀ finding ∈ findings, Reaches run.indexed place finding.place ∧ finding.Rejects run
  | .skipped _ => by simp
  | .tried hskip hchecks => hchecks.rejects hskip fun _ hcheck => hcheck

theorem Tries.rejects {run : Run} {place : Place}
    {checks : List (String × Check)} {findings : List Finding} (hskip : place.skipped = false)
    (hsub : ∀ check ∈ checks, check ∈ place.rule.checks) :
    Tries (.findings run) place checks findings →
      ∀ finding ∈ findings, Reaches run.indexed place finding.place ∧ finding.Rejects run
  | .passed => by simp
  | .next _ _ hrest => hrest.rejects hskip fun check hcheck =>
      hsub check (List.mem_cons_of_mem _ hcheck)
  | .failed hown => by
      intro finding hmem
      obtain rfl := List.mem_singleton.mp hmem
      exact ⟨.here, hskip, _, hsub _ List.mem_cons_self, hown⟩
  | .nested _ hinner _ => by
      intro finding hmem
      obtain ⟨inner, hplace, hreach, hrejects⟩ := hinner.rejects finding hmem
      exact ⟨.inside hskip (hsub _ List.mem_cons_self) hplace hreach, hrejects⟩

theorem ContributeAll.rejects {run : Run} {places : List Place}
    {findings : List Finding} :
    ContributeAll (.findings run) places findings →
      ∀ finding ∈ findings, ∃ place ∈ places,
        Reaches run.indexed place finding.place ∧ finding.Rejects run
  | .nil => by simp
  | .cons hfirst hrest => by
      intro finding hmem
      rcases List.mem_append.mp hmem with hmem | hmem
      · exact ⟨_, List.mem_cons_self, hfirst.rejects finding hmem⟩
      · obtain ⟨place, hplace, h⟩ := hrest.rejects finding hmem
        exact ⟨place, List.mem_cons_of_mem _ hplace, h⟩

end

theorem step_eq_of_prefix {base address : List Step} {step other : Step}
    (hstep : base ++ [step] <+: address) (hother : base ++ [other] <+: address) : step = other := by
  have heq := List.prefix_of_prefix_length_le hstep hother (by simp)
  have hsame : base ++ [step] = base ++ [other] := heq.eq_of_length (by simp)
  simpa using hsame

-- No address is found twice. Two findings either lie behind different siblings, or
-- come from the same one.
mutual

theorem Contributes.nodup {run : Run} {place : Place} {findings : List Finding}
    (hindexed : run.indexed = true) (hrule : place.rule.Every Check.Addressable) :
    Contributes (.findings run) place findings → (findings.map Finding.address).Nodup
  | .skipped _ => List.nodup_nil
  | .tried _ hchecks => hchecks.nodup hindexed fun _ hcheck =>
      ⟨hrule.here hcheck, fun _ hpart => hrule.inside hcheck hpart⟩

theorem Tries.nodup {run : Run} {place : Place} {checks : List (String × Check)}
    {findings : List Finding} (hindexed : run.indexed = true)
    (hchecks : ∀ check ∈ checks, check.2.Addressable ∧
      ∀ part ∈ check.2.parts, part.Every Check.Addressable) :
    Tries (.findings run) place checks findings → (findings.map Finding.address).Nodup
  | .passed => List.nodup_nil
  | .next _ _ hrest => hrest.nodup hindexed (List.forall_mem_cons.mp hchecks).2
  | .failed _ => List.nodup_singleton _
  | .nested _ hinner _ => by
      obtain ⟨⟨hcheck, hparts⟩, -⟩ := List.forall_mem_cons.mp hchecks
      obtain ⟨steps, hsiblings⟩ := place.inner_siblings hcheck
      rw [← hindexed] at hsiblings
      exact hinner.nodup hindexed hsiblings fun inner hmem => hparts _ (Place.rule_mem_parts hmem)

theorem ContributeAll.nodup {run : Run} {base : List Step} {value : Json} {steps : List Step}
    {places : List Place} {findings : List Finding} (hindexed : run.indexed = true)
    (hsiblings : Siblings base value steps places)
    (hplaces : ∀ place ∈ places, place.rule.Every Check.Addressable) :
    ContributeAll (.findings run) places findings → (findings.map Finding.address).Nodup
  | .nil => List.nodup_nil
  | .cons hfirst hrest => by
      obtain ⟨hdistinct, hreached⟩ := hsiblings
      obtain ⟨hplace, hothers⟩ := List.forall_mem_cons.mp hplaces
      cases hreached with
      | @cons step _ steps _ hhere hthere =>
          obtain ⟨hnew, hdistinct⟩ := List.nodup_cons.mp hdistinct
          rw [List.map_append]
          refine (hfirst.nodup hindexed hplace).append
            (hrest.nodup hindexed ⟨hdistinct, hthere⟩ hothers) ?_
          intro address hleft hright
          obtain ⟨finding, hmem, rfl⟩ := List.mem_map.mp hleft
          obtain ⟨other, hother, heq⟩ := List.mem_map.mp hright
          have hmeet : other.place.address = finding.place.address := heq
          have hinside := (hfirst.rejects finding hmem).1
          obtain ⟨sibling, hsibling, hreach, -⟩ := hrest.rejects other hother
          rw [hindexed] at hinside hreach
          have hbehind := (hinside.addressed hplace).1
          have hbeside := (hreach.addressed (hothers sibling hsibling)).1
          obtain ⟨second, hsecond, haddress, -⟩ := Outcome.exists_of_mem_right hthere hsibling
          rw [hhere.1] at hbehind
          rw [haddress, hmeet] at hbeside
          have hsame : step = second := step_eq_of_prefix hbehind hbeside
          exact hnew (hsame ▸ hsecond)

end

end Rulebook
