import Mathlib.Data.List.Perm.Basic
import Mathlib.Data.List.Nodup
import Rulebook.Json.Record
import Rulebook.Proofs.Compile.Outcome
import Rulebook.Proofs.Json.Written

namespace Rulebook.Json.Raw

open Outcome (mapM_eq_some_iff)

-- The numbers of the grammar, of any size: no plus sign, no zero before other digits, and digits
-- on both sides of a point.
def IsNumber (cs : List Char) : Prop :=
  ∃ n : Numeral, n.WellFormed ∧ n.WrittenIn cs ∧ n.sign ≠ some '+' ∧ n.whole ≠ [] ∧
    (n.whole.head? = some '0' → n.whole = ['0']) ∧ n.fraction ≠ some []

-- The documents of the grammar. Their numbers may be too large, and halves of surrogate pairs
-- may stand alone.
inductive IsJson : Raw → Prop
  | keyword {cs : List Char} (hcs : String.ofList cs ∈ ["null", "true", "false"]) :
      IsJson (.word cs)
  | number {cs : List Char} (hcs : IsNumber cs) : IsJson (.word cs)
  | quoted {body : List Char} {pieces : List Piece} (hbody : Piece.Reads body pieces) :
      IsJson (.quoted body)
  | arr {items : List Raw} (hitems : ∀ item ∈ items, IsJson item) : IsJson (.arr items)
  | obj {members : List (List Char × Raw)}
      (hnames : ∀ member ∈ members, ∃ pieces, Piece.Reads member.1 pieces)
      (hvalues : ∀ member ∈ members, IsJson member.2) : IsJson (.obj members)

theorem head?_eq_zero_iff {whole : List Char} (hne : whole ≠ []) :
    (whole.length == 1 || whole.head? != some '0') = true ↔
      (whole.head? = some '0' → whole = ['0']) := by
  obtain ⟨c, rest, rfl⟩ := List.exists_cons_of_ne_nil hne
  cases rest with
  | nil => simp
  | cons d rest => simp

theorem isJson_numeral_iff {n : Numeral} :
    n.isJson = true ↔ n.sign ≠ some '+' ∧ n.whole ≠ [] ∧
      (n.whole.head? = some '0' → n.whole = ['0']) ∧ n.fraction ≠ some [] := by
  by_cases hne : n.whole = []
  · simp [Numeral.isJson, hne]
  · rw [← head?_eq_zero_iff hne]
    simp [Numeral.isJson, hne, and_assoc]

theorem isScalar_iff {cs : List Char} :
    isScalar cs = true ↔ String.ofList cs ∈ ["null", "true", "false"] ∨ IsNumber cs := by
  have hword (s : String) : cs = s.toList ↔ String.ofList cs = s :=
    ⟨fun h => by rw [h, String.ofList_toList], fun h => by rw [← h, String.toList_ofList]⟩
  have hnumber : (Numeral.read? cs).any Numeral.isJson = true ↔ IsNumber cs := by
    simp only [Option.any_eq_true, Numeral.read?_eq_some_iff, isJson_numeral_iff, IsNumber,
      and_assoc]
  simp only [isScalar, Bool.or_eq_true, decide_eq_true_eq, hword, hnumber, List.mem_cons,
    List.not_mem_nil, or_false, or_assoc]

mutual

theorem isJson_iff : (raw : Raw) → (raw.isJson = true ↔ raw.IsJson)
  | .word cs => by
      rw [isJson, isScalar_iff]
      constructor
      · rintro (h | h)
        · exact .keyword h
        · exact .number h
      · intro h
        cases h with
        | keyword h => exact .inl h
        | number h => exact .inr h
  | .quoted body => by
      simp only [isJson, Option.isSome_iff_exists, Piece.readAll?_eq_some_iff]
      constructor
      · rintro ⟨pieces, h⟩
        exact .quoted h
      · intro h
        cases h with
        | quoted h => exact ⟨_, h⟩
  | .arr items => by
      rw [isJson, areJson_iff items]
      constructor
      · exact .arr
      · intro h
        cases h with
        | arr h => exact h
  | .obj members => by
      rw [isJson, areMembers_iff members]
      constructor
      · exact fun h => .obj h.1 h.2
      · intro h
        cases h with
        | obj hnames hvalues => exact ⟨hnames, hvalues⟩

theorem areJson_iff : (items : List Raw) → (areJson items = true ↔ ∀ item ∈ items, item.IsJson)
  | [] => by simp [areJson]
  | item :: rest => by
      rw [areJson, Bool.and_eq_true, isJson_iff item, areJson_iff rest, List.forall_mem_cons]

theorem areMembers_iff : (members : List (List Char × Raw)) →
    (areMembers members = true ↔ (∀ member ∈ members, ∃ pieces, Piece.Reads member.1 pieces) ∧
      ∀ member ∈ members, member.2.IsJson)
  | [] => by simp [areMembers]
  | (name, value) :: rest => by
      rw [areMembers, Bool.and_eq_true, Bool.and_eq_true, Option.isSome_iff_exists,
        isJson_iff value, areMembers_iff rest, List.forall_mem_cons, List.forall_mem_cons]
      simp only [Piece.readAll?_eq_some_iff]
      tauto

end

-- A string that stands for the text.
def Says (raw : Raw) (s : String) : Prop :=
  ∃ body, raw = .quoted body ∧ Quotes body s

theorem string?_eq_some_iff {raw : Raw} {s : String} : raw.string? = some s ↔ raw.Says s := by
  cases raw <;> simp [string?, Says, unquote?_eq_some_iff]

-- The members of an object with their names read.
def Named (members : List (List Char × Raw)) (entries : List (String × Raw)) : Prop :=
  List.Forall₂ (fun member entry => Quotes member.1 entry.1 ∧ member.2 = entry.2) members entries

-- The values of the fields of a record. A list has them in order. In an object each stands once,
-- in whatever order, and what stands beside them has other names.
inductive Fields (names : List String) (values : List Raw) : Raw → Prop
  | list (hlength : values.length = names.length) : Fields names values (.arr values)
  | object {members : List (List Char × Raw)} {named others : List (String × Raw)}
      (hlength : values.length = names.length)
      (hnamed : Named members named)
      (hfields : named.Perm (names.zip values ++ others))
      (hnames : ∀ other ∈ others, other.1 ∉ names)
      (hothers : ∀ other ∈ others, other.2.IsJson) : Fields names values (.obj members)

theorem only?_eq_some_iff {members : List (String × Raw)} {name : String} {value : Raw} :
    only? members name = some value ↔ members.filter (·.1 == name) = [(name, value)] := by
  unfold only?
  constructor
  · intro h
    split at h
    · next key found hfilter =>
        have hmem : (key, found) ∈ members.filter (·.1 == name) := by rw [hfilter]; simp
        have hkey : (key == name) = true := (List.mem_filter.mp hmem).2
        rw [hfilter, eq_of_beq hkey, Option.some.inj h]
    · cases h
  · intro h
    rw [h]

section Entries

variable {names : List String} {entries : List (String × Raw)} {values : List Raw}

-- The entries of names that stand there once each, and the others.
theorem perm_of_only? (hnames : names.Nodup)
    (h : List.Forall₂ (fun name value => only? entries name = some value) names values) :
    entries.Perm (names.zip values ++ entries.filter fun entry => !names.contains entry.1) := by
  induction h with
  | nil => simp
  | @cons name value names others hvalue _ ih =>
      obtain ⟨hname, hrest⟩ := List.nodup_cons.mp hnames
      rw [only?_eq_some_iff] at hvalue
      -- among the entries of no later name, one has this name
      have hone : (entries.filter fun entry => !names.contains entry.1).filter (·.1 == name) =
          [(name, value)] := by
        rw [← hvalue, List.filter_filter]
        refine List.filter_congr fun entry _ => ?_
        by_cases hentry : entry.1 = name <;> simp [hentry, hname]
      have hmore : (entries.filter fun entry => !names.contains entry.1).filter
          (fun entry => !(entry.1 == name)) =
            entries.filter fun entry => !(name :: names).contains entry.1 := by
        rw [List.filter_filter]
        refine List.filter_congr fun entry _ => ?_
        rw [List.contains_cons, Bool.not_or]
      have hsplit := List.filter_append_perm (·.1 == name)
        (entries.filter fun entry => !names.contains entry.1)
      rw [hone, hmore] at hsplit
      exact (ih hrest).trans ((hsplit.symm.append_left _).trans (by
        rw [List.zip_cons_cons]
        exact List.perm_middle))

theorem filter_zip {name : String} {value : Raw} (hnames : names.Nodup)
    (hmem : (name, value) ∈ names.zip values) :
    (names.zip values).filter (·.1 == name) = [(name, value)] := by
  induction names generalizing values with
  | nil => cases hmem
  | cons first names ih =>
      obtain ⟨hfirst, hrest⟩ := List.nodup_cons.mp hnames
      cases values with
      | nil => cases hmem
      | cons head values =>
          rw [List.zip_cons_cons] at hmem ⊢
          rcases List.mem_cons.mp hmem with heq | hmem
          · obtain ⟨rfl, rfl⟩ := Prod.mk.inj heq
            rw [List.filter_cons_of_pos (by simp), List.filter_eq_nil_iff.mpr]
            rintro ⟨key, other⟩ hother heq
            exact hfirst (eq_of_beq heq ▸ (List.of_mem_zip hother).1)
          · have hne : first ≠ name := fun h => hfirst (h ▸ (List.of_mem_zip hmem).1)
            rw [List.filter_cons_of_neg (by simpa using hne), ih hrest hmem]

-- A name that the others do not have is found once.
theorem only?_of_perm {others : List (String × Raw)} (hnames : names.Nodup)
    (hperm : entries.Perm (names.zip values ++ others))
    (hothers : ∀ other ∈ others, other.1 ∉ names)
    {name : String} {value : Raw} (hmem : (name, value) ∈ names.zip values) :
    only? entries name = some value := by
  have hnone : others.filter (·.1 == name) = [] := by
    refine List.filter_eq_nil_iff.mpr fun other hother heq => hothers other hother ?_
    rw [eq_of_beq heq]
    exact (List.of_mem_zip hmem).1
  have hfilter := hperm.filter (·.1 == name)
  rw [List.filter_append, filter_zip hnames hmem, hnone] at hfilter
  exact only?_eq_some_iff.mpr (List.perm_singleton.mp hfilter)

end Entries

theorem mapM_unquote?_eq_some_iff {members : List (List Char × Raw)}
    {entries : List (String × Raw)} :
    (members.mapM fun member => (unquote? member.1).map (·, member.2)) = some entries ↔
      Named members entries := by
  have hread (member : List Char × Raw) (entry : String × Raw) :
      (unquote? member.1).map (·, member.2) = some entry ↔
        Quotes member.1 entry.1 ∧ member.2 = entry.2 := by
    simp only [Option.map_eq_some_iff, unquote?_eq_some_iff, Prod.ext_iff]
    constructor
    · rintro ⟨name, hname, rfl, hvalue⟩
      exact ⟨hname, hvalue⟩
    · rintro ⟨hname, hvalue⟩
      exact ⟨entry.1, hname, rfl, hvalue⟩
  rw [mapM_eq_some_iff]
  simp only [hread]
  rfl

theorem fields?_obj_eq_some_iff {names : List String} {members : List (List Char × Raw)}
    {values : List Raw} :
    (obj members).fields? names = some values ↔ ∃ entries, Named members entries ∧
      (∀ entry ∈ entries, entry.1 ∉ names → entry.2.IsJson) ∧
      List.Forall₂ (fun name value => only? entries name = some value) names values := by
  simp only [fields?, Option.bind_eq_bind, Option.bind_eq_some_iff, mapM_unquote?_eq_some_iff]
  refine exists_congr fun entries => and_congr_right fun _ => ?_
  have hall : (entries.all fun entry => names.contains entry.1 || entry.2.isJson) = true ↔
      ∀ entry ∈ entries, entry.1 ∉ names → entry.2.IsJson := by
    simp only [List.all_eq_true, Bool.or_eq_true, List.contains_iff_mem, isJson_iff,
      or_iff_not_imp_left]
  rw [← hall, ← mapM_eq_some_iff]
  split
  · next h => simp only [h, true_and]
  · next h => simp only [h, false_and, reduceCtorEq]

-- A record is read exactly as the values of its fields.
theorem fields?_eq_some_iff {names : List String} (hnames : names.Nodup) {raw : Raw}
    {values : List Raw} : raw.fields? names = some values ↔ raw.Fields names values := by
  cases raw with
  | word cs => exact ⟨nofun, nofun⟩
  | quoted body => exact ⟨nofun, nofun⟩
  | arr items =>
      simp only [fields?]
      constructor
      · intro h
        split at h
        · next hlength =>
            cases h
            exact .list hlength
        · cases h
      · rintro ⟨hlength⟩
        rw [if_pos hlength]
  | obj members =>
      rw [fields?_obj_eq_some_iff]
      constructor
      · rintro ⟨entries, hnamed, hothers, hvalues⟩
        have hrest {other : String × Raw}
            (hother : other ∈ entries.filter fun entry => !names.contains entry.1) :
            other ∈ entries ∧ other.1 ∉ names := by
          simpa using hother
        exact .object hvalues.length_eq.symm hnamed (perm_of_only? hnames hvalues)
          (fun other hother => (hrest hother).2)
          fun other hother => hothers other (hrest hother).1 (hrest hother).2
      · intro h
        cases h with
        | @object _ entries others hlength hnamed hfields hothers hjson =>
            refine ⟨entries, hnamed, fun entry hentry hname => ?_, ?_⟩
            · rcases List.mem_append.mp (hfields.mem_iff.mp hentry) with hfield | hother
              · exact (hname (List.of_mem_zip hfield).1).elim
              · exact hjson entry hother
            · exact List.forall₂_iff_zip.mpr
                ⟨hlength.symm, fun hmem => only?_of_perm hnames hfields hothers hmem⟩

theorem named_rawMembers (members : List (String × Json)) :
    Named (rawMembers members) (members.map fun member => (member.1, member.2.raw)) := by
  induction members with
  | nil => exact .nil
  | cons member rest ih => exact .cons ⟨quotes_escape member.1, rfl⟩ ih

-- What is written for an object has its members as fields.
theorem fields_raw (members : List (String × Json)) :
    (Json.obj members).raw.Fields (members.map (·.1)) (members.map (·.2.raw)) := by
  have hfields : (members.map fun member => (member.1, member.2.raw)).Perm
      ((members.map (·.1)).zip (members.map (·.2.raw)) ++ []) := by
    rw [List.zip_map', List.append_nil]
  exact .object (by simp) (named_rawMembers members) hfields nofun nofun

theorem Says.raw (s : String) : (Json.str s).raw.Says s :=
  ⟨s.toList.flatMap escape, rfl, quotes_escape s⟩

end Rulebook.Json.Raw
