import Mathlib.Data.List.Nodup
import Rulebook.Json.Basic

namespace Rulebook

namespace Members

variable {α : Type}

theorem get?_set (name key : String) (value : α) (members : List (String × α)) :
    get? name (set key value members) = if key = name then some value else get? name members := by
  induction members with
  | nil => simp [set, get?]
  | cons member rest ih =>
      obtain ⟨first, old⟩ := member
      simp only [set]
      by_cases hfirst : first = key
      · subst hfirst
        simp only [if_true, get?]
        split <;> rfl
      · simp only [hfirst, if_false, get?, ih]
        by_cases hname : first = name
        · have hkey : key ≠ name := fun h => hfirst (hname.trans h.symm)
          simp [hname, hkey]
        · simp [hname]

theorem get?_eq_none_iff {name : String} {members : List (String × α)} :
    get? name members = none ↔ name ∉ members.map (·.1) := by
  induction members with
  | nil => simp [get?]
  | cons member rest ih =>
      obtain ⟨key, value⟩ := member
      by_cases hkey : key = name
      · simp [get?, hkey]
      · simp [get?, hkey, Ne.symm hkey, ih]

-- What is there already can be set again.
theorem set_of_get? {name : String} {value : α} {members : List (String × α)}
    (h : get? name members = some value) : set name value members = members := by
  induction members with
  | nil => cases h
  | cons member rest ih =>
      obtain ⟨key, old⟩ := member
      rw [get?] at h
      rw [set]
      split at h
      · next hkey =>
          cases h
          rw [if_pos hkey]
      · next hkey => rw [if_neg hkey, ih h]

theorem get?_eq_none_of_forall {name : String} {members : List (String × α)}
    (h : ∀ member ∈ members, member.1 ≠ name) : get? name members = none := by
  refine get?_eq_none_iff.mpr fun hmem => ?_
  obtain ⟨member, hmember, hname⟩ := List.mem_map.mp hmem
  exact h member hmember hname

theorem exists_get?_of_mem_names {name : String} {members : List (String × α)}
    (h : name ∈ members.map (·.1)) : ∃ value, get? name members = some value := by
  refine Option.ne_none_iff_exists'.mp fun hnone => ?_
  exact get?_eq_none_iff.mp hnone h

-- Where no name comes twice, every value is found under its name.
theorem get?_of_mem {member : String × α} {members : List (String × α)}
    (hnames : (members.map (·.1)).Nodup) (h : member ∈ members) :
    get? member.1 members = some member.2 := by
  induction members with
  | nil => simp at h
  | cons first rest ih =>
      obtain ⟨key, value⟩ := first
      obtain ⟨hnew, hrest⟩ := List.nodup_cons.mp hnames
      rcases List.mem_cons.mp h with rfl | hmem
      · simp [get?]
      · have hkey : key ≠ member.1 := fun heq => hnew (List.mem_map.mpr ⟨member, hmem, heq.symm⟩)
        simp only [get?, hkey, if_false, ih hrest hmem]

theorem mem_of_mem_set {name : String} {value : α} {members : List (String × α)}
    {member : String × α} (h : member ∈ set name value members) :
    member = (name, value) ∨ member ∈ members := by
  induction members with
  | nil => exact .inl (List.mem_singleton.mp h)
  | cons first rest ih =>
      obtain ⟨key, old⟩ := first
      simp only [set] at h
      split at h
      · rename_i hkey
        rcases List.mem_cons.mp h with rfl | hrest
        · exact .inl (by rw [hkey])
        · exact .inr (List.mem_cons_of_mem _ hrest)
      · rcases List.mem_cons.mp h with rfl | hrest
        · exact .inr List.mem_cons_self
        · exact (ih hrest).imp_right (List.mem_cons_of_mem _)

theorem nodup_set {members : List (String × α)} (hnames : (members.map (·.1)).Nodup)
    (name : String) (value : α) : ((set name value members).map (·.1)).Nodup := by
  induction members with
  | nil => simp [set]
  | cons first rest ih =>
      obtain ⟨key, old⟩ := first
      obtain ⟨hnew, hrest⟩ := List.nodup_cons.mp hnames
      by_cases hkey : key = name
      · simp only [set, hkey, if_true, List.map_cons]
        exact List.nodup_cons.mpr ⟨hkey ▸ hnew, hrest⟩
      · simp only [set, hkey, if_false, List.map_cons]
        refine List.nodup_cons.mpr ⟨fun hmem => ?_, ih hrest⟩
        obtain ⟨member, hmember, hname⟩ := List.mem_map.mp hmem
        rcases mem_of_mem_set hmember with rfl | hmember
        · exact hkey hname.symm
        · exact hnew (List.mem_map.mpr ⟨member, hmember, hname⟩)

theorem mem_of_mem_ofList {entries : List (String × α)} {member : String × α}
    (h : member ∈ ofList entries) : member ∈ entries := by
  have hsub : ∀ member ∈ ofList entries, member ∈ entries := by
    refine List.foldlRecOn
      (motive := fun members : List (String × α) => ∀ member ∈ members, member ∈ entries)
      entries _ ?_ ?_
    · simp
    · intro members hmembers entry hentry member hmember
      rcases mem_of_mem_set hmember with rfl | hmember
      · exact hentry
      · exact hmembers member hmember
  exact hsub member h

-- A name that is new comes last.
theorem set_of_notMem {name : String} {members : List (String × α)}
    (hnew : name ∉ members.map (·.1)) (value : α) :
    set name value members = members ++ [(name, value)] := by
  induction members with
  | nil => rfl
  | cons member rest ih =>
      obtain ⟨key, old⟩ := member
      simp only [List.map_cons, List.mem_cons, not_or] at hnew
      simp only [set, Ne.symm hnew.1, if_false, ih hnew.2, List.cons_append]

-- Where no name comes twice, the last entry is the one that was set last.
theorem set_last {members : List (String × α)} {member : String × α}
    (hnames : ((members ++ [member]).map (·.1)).Nodup) :
    (members.map (·.1)).Nodup ∧ set member.1 member.2 members = members ++ [member] := by
  rw [List.map_append, List.map_singleton, List.nodup_append] at hnames
  obtain ⟨hrest, -, hapart⟩ := hnames
  have hnew : member.1 ∉ members.map (·.1) := fun hmem =>
    hapart _ hmem _ (List.mem_singleton_self _) rfl
  exact ⟨hrest, set_of_notMem hnew member.2⟩

theorem foldl_set_of_nodup {entries members : List (String × α)}
    (hnames : ((members ++ entries).map (·.1)).Nodup) :
    entries.foldl (fun members (name, value) => set name value members) members =
      members ++ entries := by
  induction entries generalizing members with
  | nil => simp
  | cons entry rest ih =>
      obtain ⟨name, value⟩ := entry
      have hnew : name ∉ members.map (·.1) := by
        rw [List.map_append, List.map_cons, List.nodup_middle] at hnames
        exact fun hmem => (List.nodup_cons.mp hnames).1 (List.mem_append_left _ hmem)
      have hset := set_of_notMem hnew value
      simp only [List.foldl_cons, hset]
      rw [ih, List.append_assoc, List.singleton_append]
      rwa [List.append_assoc, List.singleton_append]

theorem ofList_of_nodup {entries : List (String × α)} (hnames : (entries.map (·.1)).Nodup) :
    ofList entries = entries :=
  foldl_set_of_nodup hnames

theorem get?_filter {keep : String → Bool} {name : String} (hname : keep name = true)
    (members : List (String × α)) :
    get? name (members.filter fun member => keep member.1) = get? name members := by
  induction members with
  | nil => rfl
  | cons member rest ih =>
      obtain ⟨key, value⟩ := member
      by_cases hkey : key = name
      · simp [get?, hkey, hname]
      · cases hkeep : keep key <;> simp [get?, hkey, hkeep, ih]

theorem map_fst_zip_sublist (names : List String) (values : List α) :
    ((names.zip values).map (·.1)).Sublist names := by
  induction names generalizing values with
  | nil => exact List.Sublist.refl []
  | cons name names ih =>
      cases values with
      | nil => exact List.nil_sublist _
      | cons value values => exact (ih values).cons_cons name

-- What is set last counts.
theorem get?_foldl_set {entries : List (String × α)} (hnames : (entries.map (·.1)).Nodup)
    (name : String) (members : List (String × α)) :
    get? name (entries.foldl (fun members (name, value) => set name value members) members) =
      (get? name entries).or (get? name members) := by
  induction entries generalizing members with
  | nil => rfl
  | cons entry rest ih =>
      obtain ⟨key, value⟩ := entry
      obtain ⟨hnew, hrest⟩ := List.nodup_cons.mp hnames
      rw [List.foldl_cons, ih hrest, get?_set]
      by_cases hkey : key = name
      · subst hkey
        simp only [get?, if_true, get?_eq_none_iff.mpr hnew, Option.none_or, Option.some_or]
      · simp only [get?, hkey, if_false]

theorem filter_set (keep : String → Bool) (name : String) (value : α)
    (members : List (String × α)) :
    (set name value members).filter (fun member => keep member.1) =
      if keep name then set name value (members.filter fun member => keep member.1)
      else members.filter fun member => keep member.1 := by
  induction members with
  | nil => cases hname : keep name <;> simp [set, hname]
  | cons member rest ih =>
      obtain ⟨key, old⟩ := member
      by_cases hkey : key = name
      · subst hkey
        cases hname : keep key <;> simp [set, hname]
      · cases hold : keep key with
        | true =>
            simp only [set, hkey, if_false, List.filter_cons, hold, if_true, ih]
            split <;> rfl
        | false => simp only [set, hkey, if_false, List.filter_cons, hold, ih, Bool.false_eq_true]

theorem filter_foldl_set (keep : String → Bool) (entries members : List (String × α)) :
    (entries.foldl (fun members (name, value) => set name value members) members).filter
        (fun member => keep member.1) =
      (entries.filter fun entry => keep entry.1).foldl
        (fun members (name, value) => set name value members)
        (members.filter fun member => keep member.1) := by
  induction entries generalizing members with
  | nil => rfl
  | cons entry rest ih =>
      obtain ⟨name, value⟩ := entry
      rw [List.foldl_cons, ih, filter_set, List.filter_cons]
      cases keep name <;> rfl

end Members

namespace Json

-- No object in the value has a name twice.
inductive Distinct : Json → Prop
  | null : Distinct .null
  | bool (b : Bool) : Distinct (.bool b)
  | num (n : Number) : Distinct (.num n)
  | str (s : String) : Distinct (.str s)
  | arr {items : List Json} (hitems : ∀ item ∈ items, Distinct item) : Distinct (.arr items)
  | obj {members : List (String × Json)} (hnames : (members.map (·.1)).Nodup)
      (hvalues : ∀ member ∈ members, Distinct member.2) : Distinct (.obj members)

theorem Distinct.of_present? {name : String} {members : List (String × Json)} {value : Json}
    (hmembers : ∀ member ∈ members, member.2.Distinct)
    (hpresent : present? name members = some value) : value.Distinct := by
  obtain ⟨hget, -⟩ := Option.filter_eq_some_iff.mp hpresent
  exact hmembers (name, value) (Members.mem_of_get? hget)

end Json

end Rulebook
