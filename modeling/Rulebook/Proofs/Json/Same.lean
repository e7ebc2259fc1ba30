import Mathlib.Data.List.Forall2
import Mathlib.Data.List.Perm.Subperm
import Rulebook.Json.Inspect
import Rulebook.Proofs.Json.Members
import Rulebook.Proofs.Number.Magnitude

namespace Rulebook

namespace Json

-- Values are finite trees: what passes from the parts of a value to the value holds of all.
theorem induction {motive : Json → Prop}
    (step : ∀ value : Json,
      (∀ items, value = arr items → ∀ item ∈ items, motive item) →
      (∀ members, value = obj members → ∀ member ∈ members, motive member.2) → motive value)
    (value : Json) : motive value := by
  refine step value (fun items hitems item hmem => ?_) fun members hmembers member hmem => ?_
  · have hlt : sizeOf item < sizeOf value := by
      have := List.sizeOf_lt_of_mem hmem
      simp only [hitems, arr.sizeOf_spec]
      omega
    exact induction step item
  · have hlt : sizeOf member.2 < sizeOf value := by
      obtain ⟨name, inner⟩ := member
      have := List.sizeOf_lt_of_mem hmem
      simp only [hmembers, obj.sizeOf_spec, Prod.mk.sizeOf_spec] at *
      omega
    exact induction step member.2
termination_by sizeOf value

theorem sameItems_iff {xs ys : List Json} :
    sameItems xs ys = true ↔ List.Forall₂ (fun x y => x.same y = true) xs ys := by
  induction xs generalizing ys with
  | nil => cases ys <;> simp [sameItems]
  | cons x xs ih => cases ys <;> simp [sameItems, ih]

theorem sameMembers_iff {xs ys : List (String × Json)} :
    sameMembers xs ys = true ↔
      ∀ member ∈ xs, ∃ y, Members.get? member.1 ys = some y ∧ member.2.same y = true := by
  induction xs with
  | nil => simp [sameMembers]
  | cons member xs ih =>
      obtain ⟨name, x⟩ := member
      rw [sameMembers, Bool.and_eq_true, ih, List.forall_mem_cons]
      refine and_congr_left fun _ => ?_
      cases Members.get? name ys <;> simp

-- How two equal values look, down to their parts.
inductive Same : Json → Json → Prop
  | null : Same .null .null
  | bool (b : Bool) : Same (.bool b) (.bool b)
  | num {a b : Number} (h : a.same b = true) : Same (.num a) (.num b)
  | str (s : String) : Same (.str s) (.str s)
  | arr {xs ys : List Json} (h : List.Forall₂ (fun x y => x.same y = true) xs ys) :
      Same (.arr xs) (.arr ys)
  | obj {xs ys : List (String × Json)} (hlength : xs.length = ys.length)
      (h : ∀ member ∈ xs, ∃ y, Members.get? member.1 ys = some y ∧ member.2.same y = true) :
      Same (.obj xs) (.obj ys)

theorem same_iff {a b : Json} : a.same b = true ↔ Same a b := by
  constructor
  · intro h
    rw [same.eq_def] at h
    split at h
    · exact .null
    · obtain rfl := eq_of_beq h
      exact .bool _
    · exact .num h
    · obtain rfl := eq_of_beq h
      exact .str _
    · exact .arr (sameItems_iff.mp h)
    · obtain ⟨hlength, h⟩ := Bool.and_eq_true_iff.mp h
      exact .obj (eq_of_beq hlength) (sameMembers_iff.mp h)
    · cases h
  · intro h
    cases h with
    | null => rfl
    | bool b => exact beq_self_eq_true b
    | num h => exact h
    | str s => exact beq_self_eq_true s
    | arr h => exact sameItems_iff.mpr h
    | obj hlength h =>
        rw [same, Bool.and_eq_true, beq_iff_eq]
        exact ⟨hlength, sameMembers_iff.mpr h⟩

private theorem forall₂_trans {R : Json → Json → Prop} {xs ys zs : List Json}
    (htrans : ∀ y ∈ ys, ∀ x z, R x y → R y z → R x z) (hxy : List.Forall₂ R xs ys)
    (hyz : List.Forall₂ R ys zs) : List.Forall₂ R xs zs := by
  induction hxy generalizing zs with
  | nil => exact hyz
  | @cons x y _ _ hhead _ ih =>
      obtain ⟨hfirst, hrest⟩ := List.forall_mem_cons.mp htrans
      cases hyz with
      | cons hnext htail => exact .cons (hfirst _ _ hhead hnext) (ih hrest htail)

theorem same_trans {a b c : Json} (hab : a.same b = true) (hbc : b.same c = true) :
    a.same c = true := by
  induction b using Json.induction generalizing a c with
  | step b hitems hmembers =>
      rw [same_iff] at hab hbc ⊢
      cases hab with
      | null => exact hbc
      | bool p => exact hbc
      | str s => exact hbc
      | num h =>
          cases hbc with
          | num h' => exact .num (Number.same_trans h h')
      | @arr xs ys h =>
          cases hbc with
          | @arr _ zs h' =>
              exact .arr (forall₂_trans (fun y hy x z => hitems ys rfl y hy) h h')
      | @obj xs ys hlength h =>
          cases hbc with
          | @obj _ zs hlength' h' =>
              refine .obj (hlength.trans hlength') fun member hmember => ?_
              obtain ⟨y, hy, hxy⟩ := h member hmember
              have hmem := Members.mem_of_get? hy
              obtain ⟨z, hz, hyz⟩ := h' (member.1, y) hmem
              exact ⟨z, hz, hmembers ys rfl _ hmem hxy hyz⟩

private theorem forall₂_symm {R : Json → Json → Prop} {xs ys : List Json}
    (hsymm : ∀ x ∈ xs, ∀ y ∈ ys, R x y → R y x) (h : List.Forall₂ R xs ys) :
    List.Forall₂ R ys xs := by
  induction h with
  | nil => exact .nil
  | @cons x y xs ys hhead _ ih =>
      refine .cons (hsymm x List.mem_cons_self y List.mem_cons_self hhead) (ih ?_)
      intro x hx y hy
      exact hsymm x (List.mem_cons_of_mem _ hx) y (List.mem_cons_of_mem _ hy)

-- Names that are all found on the other side, which has no more of them, are the same.
theorem names_perm {xs ys : List (String × Json)} (hnames : (xs.map (·.1)).Nodup)
    (hlength : xs.length = ys.length)
    (h : ∀ member ∈ xs, ∃ y, Members.get? member.1 ys = some y ∧ member.2.same y = true) :
    (xs.map (·.1)).Perm (ys.map (·.1)) := by
  have hsubset : xs.map (·.1) ⊆ ys.map (·.1) := by
    intro name hname
    obtain ⟨member, hmember, rfl⟩ := List.mem_map.mp hname
    obtain ⟨y, hy, -⟩ := h member hmember
    exact List.mem_map.mpr ⟨(member.1, y), Members.mem_of_get? hy, rfl⟩
  refine (hnames.subperm hsubset).perm_of_length_le ?_
  simp [hlength]

theorem same_symm {a b : Json} (ha : a.Distinct) (hb : b.Distinct) (h : a.same b = true) :
    b.same a = true := by
  induction ha generalizing b with
  | null | bool p | str s =>
      rw [same_iff] at h ⊢
      cases h
      constructor
  | num n =>
      rw [same_iff] at h ⊢
      cases h with
      | num h => exact .num ((Number.same_comm _ _).trans h)
  | @arr xs hitems ih =>
      rw [same_iff] at h ⊢
      cases h with
      | @arr _ ys h =>
          cases hb with
          | arr hothers =>
              exact .arr (forall₂_symm (fun x hx y hy => ih x hx (hothers y hy)) h)
  | @obj xs hnames hvalues ih =>
      rw [same_iff] at h ⊢
      cases h with
      | @obj _ ys hlength h =>
          cases hb with
          | obj hothers hdistinct =>
              have hperm := names_perm hnames hlength h
              refine .obj hlength.symm fun member hmember => ?_
              have hname := hperm.mem_iff.mpr (List.mem_map_of_mem hmember)
              obtain ⟨x, hx⟩ := Members.exists_get?_of_mem_names hname
              have hmem := Members.mem_of_get? hx
              obtain ⟨y, hy, hxy⟩ := h _ hmem
              obtain rfl : member.2 = y :=
                Option.some.inj ((Members.get?_of_mem hothers hmember).symm.trans hy)
              exact ⟨x, hx, ih _ hmem (hdistinct member hmember) hxy⟩

-- Values that are equal whichever of them comes first.
structure Alike (a b : Json) : Prop where
  left : a.same b = true
  right : b.same a = true

namespace Alike

variable {a b : Json}

theorem of_distinct (ha : a.Distinct) (hb : b.Distinct) (h : a.same b = true) : Alike a b :=
  ⟨h, same_symm ha hb h⟩

theorem same_left (h : Alike a b) (value : Json) : value.same a = value.same b :=
  Bool.eq_iff_iff.mpr ⟨fun hvalue => same_trans hvalue h.left,
    fun hvalue => same_trans hvalue h.right⟩

theorem same_right (h : Alike a b) (value : Json) : a.same value = b.same value :=
  Bool.eq_iff_iff.mpr ⟨same_trans h.right, same_trans h.left⟩

theorem isNull_eq (h : Alike a b) : a.isNull = b.isNull := by
  cases same_iff.mp h.left <;> rfl

theorem isObject_eq (h : Alike a b) : a.isObject = b.isObject := by
  cases same_iff.mp h.left <;> rfl

theorem isBlank_eq (h : Alike a b) : a.isBlank = b.isBlank := by
  cases same_iff.mp h.left with
  | @arr xs ys hitems => cases hitems <;> rfl
  | @obj xs ys hlength _ =>
      have hempty : xs = [] ↔ ys = [] := by
        rw [← List.length_eq_zero_iff, ← List.length_eq_zero_iff, hlength]
      cases xs <;> cases ys <;> simp_all [isBlank]
  | _ => rfl

theorem kind_eq (h : Alike a b) : a.kind = b.kind := by
  cases same_iff.mp h.left <;> rfl

theorem scalarText_eq (h : Alike a b) : a.scalarText = b.scalarText := by
  cases same_iff.mp h.left with
  | @num x y hsame => simp only [scalarText, Number.plain_eq_of_same hsame]
  | _ => rfl

theorem items {xs ys : List Json} (h : Alike (arr xs) (arr ys)) : List.Forall₂ Alike xs ys := by
  obtain ⟨hleft, hright⟩ := h
  cases same_iff.mp hleft with
  | arr hxs =>
      cases same_iff.mp hright with
      | arr hys => exact List.Forall₂.mp (fun _ _ => Alike.mk) hxs hys.flip

-- The members of equal objects are equal, and so is what they both do not have.
theorem field (h : Alike a b) (name : String) : Alike (a.field name) (b.field name) := by
  obtain ⟨hleft, hright⟩ := h
  cases same_iff.mp hleft with
  | @obj xs ys _ hxs =>
      cases same_iff.mp hright with
      | obj _ hys =>
          simp only [Json.field, Json.get?]
          cases hx : Members.get? name xs with
          | some x =>
              obtain ⟨y, hy, hxy⟩ := hxs _ (Members.mem_of_get? hx)
              obtain ⟨x', hx', hyx⟩ := hys _ (Members.mem_of_get? hy)
              obtain rfl : x' = x := Option.some.inj (hx'.symm.trans hx)
              rw [hy]
              exact ⟨hxy, hyx⟩
          | none =>
              cases hy : Members.get? name ys with
              | none => exact ⟨rfl, rfl⟩
              | some y =>
                  obtain ⟨x, hx', -⟩ := hys _ (Members.mem_of_get? hy)
                  simp [hx] at hx'
  | _ => exact ⟨rfl, rfl⟩

end Alike

end Json

end Rulebook
