import Rulebook.Proofs.Json.Same
import Rulebook.Proofs.Number.Value

namespace Rulebook

namespace Number

-- The kinds of numbers are told apart by this alone.
def isFloat : Number → Bool
  | int _ _ => false
  | float _ => true

-- Data tells numbers apart by their value and their kind.
theorem same_iff {a b : Number} : a.same b = true ↔ a.value = b.value ∧ a.isFloat = b.isFloat := by
  rw [value_inj]
  cases a with
  | int n hn =>
      cases b with
      | int m hm =>
          have hone : Binary64.one ≠ 0 := by decide
          simp [same, units, isFloat, hone]
      | float y => simp [same, isFloat]
  | float x =>
      cases b with
      | int m hm => simp [same, isFloat]
      | float y => simp [same, Binary64.same, units, isFloat]

end Number

namespace Json

-- Equality of data under an equality of numbers: arrays element by element, and objects key by
-- key in whatever order.
inductive EqualBy (R : Number → Number → Prop) : Json → Json → Prop
  | null : EqualBy R .null .null
  | bool (b : Bool) : EqualBy R (.bool b) (.bool b)
  | num {a b : Number} (h : R a b) : EqualBy R (.num a) (.num b)
  | str (s : String) : EqualBy R (.str s) (.str s)
  | arr {xs ys : List Json} (hlength : xs.length = ys.length)
      (hitems : ∀ {x y}, (x, y) ∈ xs.zip ys → EqualBy R x y) : EqualBy R (.arr xs) (.arr ys)
  | obj {xs ys : List (String × Json)}
      (hnames : ∀ name, name ∈ xs.map (·.1) ↔ name ∈ ys.map (·.1))
      (hmembers : ∀ {name x y}, Members.get? name xs = some x → Members.get? name ys = some y →
        EqualBy R x y) : EqualBy R (.obj xs) (.obj ys)

-- The numbers of a value, at any depth.
inductive Holds (n : Number) : Json → Prop
  | here : Holds n (.num n)
  | item {items : List Json} {item : Json} (hmem : item ∈ items) (h : Holds n item) :
      Holds n (.arr items)
  | member {members : List (String × Json)} {member : String × Json} (hmem : member ∈ members)
      (h : Holds n member.2) : Holds n (.obj members)

-- Only the equality of the numbers that occur matters.
theorem EqualBy.of_forall {R S : Number → Number → Prop} {a b : Json} (h : EqualBy R a b)
    (himp : ∀ m n, Holds m a → Holds n b → R m n → S m n) : EqualBy S a b := by
  induction h with
  | null => exact .null
  | bool b => exact .bool b
  | str s => exact .str s
  | num h => exact .num (himp _ _ .here .here h)
  | arr hlength hitems ih =>
      refine .arr hlength fun {x y} hpair => ih hpair fun m n hm hn => ?_
      exact himp m n (.item (List.of_mem_zip hpair).1 hm) (.item (List.of_mem_zip hpair).2 hn)
  | obj hnames hmembers ih =>
      refine .obj hnames fun {name x y} hx hy => ih hx hy fun m n hm hn => ?_
      exact himp m n (.member (Members.mem_of_get? hx) hm) (.member (Members.mem_of_get? hy) hn)

theorem equalBy_of_same {a b : Json} (ha : a.Distinct) (hb : b.Distinct) (h : a.same b = true) :
    EqualBy (fun m n => m.same n = true) a b := by
  induction ha generalizing b with
  | null | bool p | str s =>
      cases same_iff.mp h
      constructor
  | num n =>
      rw [same_iff] at h
      cases h with
      | num h => exact .num h
  | @arr xs hitems ih =>
      rw [same_iff] at h
      cases h with
      | @arr _ ys h =>
          cases hb with
          | arr hothers =>
              obtain ⟨hlength, hpairs⟩ := List.forall₂_iff_zip.mp h
              refine .arr hlength fun {x y} hpair => ?_
              obtain ⟨hx, hy⟩ := List.of_mem_zip hpair
              exact ih x hx (hothers y hy) (hpairs hpair)
  | @obj xs hnames hvalues ih =>
      rw [same_iff] at h
      cases h with
      | @obj _ ys hlength h =>
          cases hb with
          | obj hothers hdistinct =>
              refine .obj (fun name => (names_perm hnames hlength h).mem_iff) ?_
              intro name x y hx hy
              have hmem := Members.mem_of_get? hx
              obtain ⟨found, hfound, hsame⟩ := h _ hmem
              obtain rfl : found = y := Option.some.inj (hfound.symm.trans hy)
              exact ih _ hmem (hdistinct _ (Members.mem_of_get? hy)) hsame

theorem same_of_equalBy {a b : Json} (ha : a.Distinct) (hb : b.Distinct)
    (h : EqualBy (fun m n => m.same n = true) a b) : a.same b = true := by
  induction h with
  | null | bool p | str s =>
      rw [same_iff]
      constructor
  | num h => exact same_iff.mpr (.num h)
  | arr hlength hitems ih =>
      cases ha with
      | arr hxs =>
          cases hb with
          | arr hys =>
              refine same_iff.mpr (.arr (List.forall₂_iff_zip.mpr ⟨hlength, fun {x y} hpair => ?_⟩))
              obtain ⟨hx, hy⟩ := List.of_mem_zip hpair
              exact ih hpair (hxs x hx) (hys y hy)
  | @obj xs ys hnames hmembers ih =>
      cases ha with
      | obj hxs hvalues =>
          cases hb with
          | obj hys hothers =>
              have hperm : (xs.map (·.1)).Perm (ys.map (·.1)) :=
                (List.perm_ext_iff_of_nodup hxs hys).mpr hnames
              refine same_iff.mpr (.obj (by simpa using hperm.length_eq) fun member hmember => ?_)
              have hx := Members.get?_of_mem hxs hmember
              obtain ⟨y, hy⟩ := Members.exists_get?_of_mem_names
                ((hnames _).mp (List.mem_map_of_mem hmember))
              exact ⟨y, hy, ih hx hy (hvalues _ hmember) (hothers _ (Members.mem_of_get? hy))⟩

-- Equality of data, read with exact values.
theorem same_iff_equalBy {a b : Json} (ha : a.Distinct) (hb : b.Distinct) :
    a.same b = true ↔ EqualBy (fun m n => m.value = n.value ∧ m.isFloat = n.isFloat) a b := by
  constructor
  · intro h
    exact (equalBy_of_same ha hb h).of_forall fun _ _ _ _ => Number.same_iff.mp
  · intro h
    exact same_of_equalBy ha hb (h.of_forall fun _ _ _ _ => Number.same_iff.mpr)

end Json

end Rulebook
