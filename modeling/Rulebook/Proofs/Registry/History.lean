import Mathlib.Data.List.Induction
import Rulebook.Proofs.Registry.Names
import Rulebook.Proofs.Registry.Registration
import Rulebook.Validator.Making

namespace Rulebook

open Outcome

-- What an addition makes a registry hold, if it can be made at all: its name must not be
-- blank and its pattern must be one.
def Addition.entry? [Engine] : Addition → Option (String × Extension)
  | described r =>
      if Text.allBlank r.name then none
      else (Registry.matcher r.name r.check.kind).toOption.map fun m =>
        (r.name, .custom m (r.message.getD (Registry.defaultMessage r.name m))
          (r.code.getD .invalid) r.check.params)
  | built name params build => some (name, .foreign params build)

theorem Registry.give_described_eq_ok_iff [Engine] {registry next : Registry} {r : Registration} :
    registry.give (.described r) = .ok next ↔
      registry.register r.name r.check r.message r.code = (next, .ok ()) := by
  rw [give]
  obtain ⟨left, result⟩ := registry.register r.name r.check r.message r.code
  cases result <;> simp [bind, Except.bind]

theorem Registry.give_eq_ok_iff [Engine] {registry next : Registry} {addition : Addition} :
    registry.give addition = .ok next ↔
      ∃ entry, addition.entry? = some entry ∧ next = registry.add entry.1 entry.2 := by
  cases addition with
  | built name params build => simp [give, Addition.entry?, eq_comm]
  | described r =>
      rw [give_described_eq_ok_iff, register_eq_ok_iff, Addition.entry?]
      cases Text.allBlank r.name with
      | true => simp
      | false =>
          cases matcher r.name r.check.kind with
          | error error => simp [Except.toOption]
          | ok m => simp [Except.toOption]

-- The checks that were registered with a registry, in order, and what it began with.
structure History where
  catalogue : Bool := true
  entries : List (String × Extension) := []

namespace History

def add (history : History) (entry : String × Extension) : History :=
  { history with entries := history.entries ++ [entry] }

-- An addition that cannot be made leaves nothing behind.
def record [Engine] (history : History) (addition : Addition) : History :=
  (addition.entry?.map history.add).getD history

-- What it began with, the catalogue or nothing.
def start (history : History) : Registry :=
  { catalogue := history.catalogue }

-- What was registered last under a name, or what was there at the start.
def last? (history : History) (name : String) : Option Entry :=
  ((history.entries.reverse.find? (·.1 == name)).map fun entry => .extension entry.2).or
    (history.start.resolve name)

-- The registry that holds what was registered.
def registry (history : History) : Registry :=
  history.entries.foldl (fun registry entry => registry.add entry.1 entry.2) history.start

theorem registry_add (history : History) (entry : String × Extension) :
    (history.add entry).registry = history.registry.add entry.1 entry.2 :=
  List.foldl_append

theorem registry_record [Engine] {history : History} {addition : Addition} {next : Registry}
    (h : history.registry.give addition = .ok next) :
    (history.record addition).registry = next := by
  obtain ⟨entry, hentry, rfl⟩ := Registry.give_eq_ok_iff.mp h
  rw [record, hentry, Option.map_some, Option.getD_some, registry_add]

theorem last?_add (history : History) (entry : String × Extension) (name : String) :
    (history.add entry).last? name =
      if entry.1 = name then some (.extension entry.2) else history.last? name := by
  have hreverse : (history.add entry).entries.reverse = entry :: history.entries.reverse :=
    List.reverse_concat
  rw [last?, hreverse]
  by_cases hname : entry.1 = name
  · rw [if_pos hname, List.find?_cons_of_pos (by simpa using hname)]
    rfl
  · rw [if_neg hname, List.find?_cons_of_neg (by simpa using hname)]
    rfl

-- What passes from a history to the next one holds of all.
theorem induction {motive : History → Prop} (start : ∀ catalogue, motive ⟨catalogue, []⟩)
    (add : ∀ history entry, motive history → motive (history.add entry)) (history : History) :
    motive history := by
  obtain ⟨catalogue, entries⟩ := history
  induction entries using List.reverseRecOn with
  | nil => exact start catalogue
  | append_singleton entries entry ih => exact add ⟨catalogue, entries⟩ entry ih

theorem resolve_registry (history : History) (name : String) :
    history.registry.resolve name = history.last? name := by
  induction history using History.induction with
  | start catalogue => cases catalogue <;> rfl
  | add history entry ih => rw [registry_add, Registry.resolve_add, last?_add, ih]

theorem nodup_added (history : History) : (history.registry.added.map (·.1)).Nodup := by
  induction history using History.induction with
  | start catalogue => exact List.nodup_nil
  | add history entry ih =>
      rw [registry_add]
      exact Members.nodup_set ih entry.1 entry.2

end History

theorem Refusal.ofSetup_eq_ok_iff {α : Type} {result : Except SetupError α} {a : α} :
    Refusal.ofSetup result = .ok a ↔ result = .ok a := by
  cases result <;> simp [Refusal.ofSetup, Except.mapError]

def Stock.history [Engine] (stock : Stock) : History :=
  stock.additions.foldl (fun history addition => addition.toOption.elim history history.record)
    { catalogue := stock.catalogue }

theorem Stock.registry_history [Engine] {stock : Stock} {registry : Registry}
    (h : stock.registry = .ok registry) : stock.history.registry = registry := by
  refine foldl_of_foldlM (R := fun registry (history : History) =>
    history.registry = registry) ?_ rfl h
  rintro registry history addition next rfl hnext
  obtain ⟨addition, rfl, hgive⟩ := bind_eq_ok_iff.mp hnext
  exact History.registry_record (Refusal.ofSetup_eq_ok_iff.mp hgive)

namespace Builder

def Call.onto [Engine] (history : History) : Call → History
  | registry stock => stock.history
  | rule r => history.record (.described r)
  | _ => history

theorem registry_onto [Engine] {builder next : Builder} {history : History} {call : Call}
    (hbuilder : history.registry = builder.registry.getD {})
    (h : builder.call call = .ok next) :
    (call.onto history).registry = next.registry.getD {} := by
  cases call with
  | message check text | indexArrayPaths on | config config | translate translator =>
      cases h
      exact hbuilder
  | registry stock =>
      obtain ⟨registry, hregistry, h⟩ := bind_eq_ok_iff.mp h
      cases h
      exact stock.registry_history hregistry
  | rule r =>
      have hrule := Refusal.ofSetup_eq_ok_iff.mp h
      rw [rule] at hrule
      obtain ⟨_, hresult, hnext⟩ := bind_eq_ok_iff.mp hrule
      cases hnext
      rw [← hbuilder] at hresult ⊢
      exact History.registry_record
        (Registry.give_described_eq_ok_iff.mpr (Prod.ext rfl hresult))

end Builder

namespace Making

def history [Engine] : Making → History
  | new _ stock _ => stock.history
  | default _ => {}
  | builder calls =>
      calls.foldl (fun history call => call.toOption.elim history (·.onto history)) {}

-- A validator starts with the checks that were registered while it was made.
theorem registry_history [Engine] {making : Making} {validator : Validator}
    (h : making.make = .ok validator) : making.history.registry = validator.registry := by
  cases making with
  | new config stock translator =>
      obtain ⟨config, -, h⟩ := bind_eq_ok_iff.mp h
      obtain ⟨registry, hregistry, h⟩ := bind_eq_ok_iff.mp h
      cases h
      exact stock.registry_history hregistry
  | default config =>
      obtain ⟨config, -, h⟩ := bind_eq_ok_iff.mp h
      cases h
      rfl
  | builder calls =>
      obtain ⟨builder, hcalls, h⟩ := bind_eq_ok_iff.mp h
      cases h
      refine foldl_of_foldlM (c := ({} : History)) (R := fun builder history =>
        history.registry = builder.registry.getD {}) ?_ rfl hcalls
      intro builder history call next hbuilder hnext
      obtain ⟨call, rfl, hcall⟩ := bind_eq_ok_iff.mp hnext
      exact Builder.registry_onto hbuilder hcall

end Making

end Rulebook
