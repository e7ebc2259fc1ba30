import Rulebook.Proofs.Regex.Spans
import Rulebook.Proofs.Text.Join

namespace Rulebook.Regex

-- No condition on the characters around a match.
def free : Regex → Bool
  | look _ => false
  | seq a b => a.free && b.free
  | alt a b => a.free && b.free
  | rep body _ _ => body.free
  | _ => true

-- The texts that such an expression stands for, whatever is around them. A repetition stands for
-- as many parts as its bounds allow, one after the other.
def Denotes : Regex → List Char → Prop
  | empty, text => text = []
  | chars set, text => ∃ c, set.mem c = true ∧ text = [c]
  | look _, _ => False
  | seq a b, text => ∃ x y, text = x ++ y ∧ a.Denotes x ∧ b.Denotes y
  | alt a b, text => a.Denotes text ∨ b.Denotes text
  | rep body min max, text => ∃ parts : List (List Char), text = parts.flatten ∧
      min ≤ parts.length ∧ (∀ m ∈ max, parts.length ≤ m) ∧ ∀ part ∈ parts, body.Denotes part

variable {before after : Option Char} {text : List Char} {n : Nat}

-- Rounds that do not look around are the parts of the text.
theorem rounds_iff_parts {round : Option Char → Option Char → List Char → Prop}
    {P : List Char → Prop} (hround : ∀ before after part, round before after part ↔ P part) :
    Rounds round n before after text ↔
      ∃ parts : List (List Char), text = parts.flatten ∧ parts.length = n ∧
        ∀ part ∈ parts, P part := by
  induction n generalizing before text with
  | zero =>
      constructor
      · rintro rfl
        exact ⟨[], rfl, rfl, by simp⟩
      · rintro ⟨parts, rfl, hlength, -⟩
        obtain rfl := List.length_eq_zero_iff.mp hlength
        rfl
  | succ n ih =>
      constructor
      · rintro ⟨x, y, rfl, hx, hy⟩
        obtain ⟨parts, rfl, hlength, hparts⟩ := ih.mp hy
        refine ⟨x :: parts, rfl, by rw [List.length_cons, hlength], ?_⟩
        exact List.forall_mem_cons.mpr ⟨(hround _ _ x).mp hx, hparts⟩
      · rintro ⟨parts, rfl, hlength, hparts⟩
        obtain ⟨x, rest, rfl⟩ := List.exists_cons_of_length_eq_add_one hlength
        obtain ⟨hx, hlater⟩ := List.forall_mem_cons.mp hparts
        have hrest : rest.length = n := Nat.succ.inj hlength
        exact ⟨x, rest.flatten, rfl, (hround _ _ x).mpr hx, ih.mpr ⟨rest, rfl, hrest, hlater⟩⟩

theorem spans_iff_denotes {e : Regex} (he : e.free = true) :
    e.Spans before after text ↔ e.Denotes text := by
  induction e generalizing before after text with
  | empty => rfl
  | chars set => rfl
  | look condition => cases he
  | seq a b iha ihb =>
      obtain ⟨ha, hb⟩ := Bool.and_eq_true_iff.mp he
      simp only [Spans, Denotes, iha ha, ihb hb]
  | alt a b iha ihb =>
      obtain ⟨ha, hb⟩ := Bool.and_eq_true_iff.mp he
      simp only [Spans, Denotes, iha ha, ihb hb]
  | rep body min max ih =>
      have hrounds (n : Nat) : Rounds body.Spans n before after text ↔
          ∃ parts : List (List Char), text = parts.flatten ∧ parts.length = n ∧
            ∀ part ∈ parts, body.Denotes part :=
        rounds_iff_parts fun _ _ _ => ih he
      simp only [Spans, Denotes, hrounds]
      constructor
      · rintro ⟨_, hmin, hmax, parts, rfl, rfl, hparts⟩
        exact ⟨parts, rfl, hmin, hmax, hparts⟩
      · rintro ⟨parts, rfl, hmin, hmax, hparts⟩
        exact ⟨parts.length, hmin, hmax, parts, rfl, rfl, hparts⟩

-- An expression for a whole text matches the texts that it stands for.
theorem isMatch_whole_iff_denotes {e : Regex} (hsettled : e.settled = true)
    (hfree : e.free = true) : (whole e).isMatch text = true ↔ e.Denotes text := by
  rw [isMatch_whole_iff hsettled, spans_iff_denotes hfree]

theorem denotes_char {d : Char} : (char d).Denotes text ↔ text = [d] := by
  constructor
  · rintro ⟨c, hc, rfl⟩
    rw [CharClass.mem_single.mp hc]
  · rintro rfl
    exact ⟨d, CharClass.mem_single.mpr rfl, rfl⟩

theorem denotes_optional {e : Regex} :
    (optional e).Denotes text ↔ text = [] ∨ e.Denotes text := by
  constructor
  · rintro ⟨parts, rfl, -, hmax, hparts⟩
    have hone := hmax 1 rfl
    cases parts with
    | nil => exact .inl rfl
    | cons part rest =>
        obtain rfl : rest = [] := List.length_eq_zero_iff.mp (by simpa using hone)
        right
        simpa using hparts
  · rintro (rfl | hpart)
    · exact ⟨[], rfl, Nat.zero_le 0, fun m _ => Nat.zero_le m, by simp⟩
    · refine ⟨[text], by simp, Nat.zero_le 1, ?_, List.forall_mem_singleton.mpr hpart⟩
      rintro m ⟨⟩
      exact Nat.le_refl 1

theorem denotes_seq_assoc (a b c : Regex) :
    (seq a (seq b c)).Denotes text ↔ (seq (seq a b) c).Denotes text := by
  constructor
  · rintro ⟨x, _, rfl, hx, y, z, rfl, hy, hz⟩
    exact ⟨x ++ y, z, (List.append_assoc x y z).symm, ⟨x, y, rfl, hx, hy⟩, hz⟩
  · rintro ⟨_, z, rfl, ⟨x, y, rfl, hx, hy⟩, hz⟩
    exact ⟨x, y ++ z, List.append_assoc x y z, hx, y, z, rfl, hy, hz⟩

theorem exists_items {f : List Char → List Char} {P : List Char → Prop}
    {parts : List (List Char)} (h : ∀ part ∈ parts, ∃ item, part = f item ∧ P item) :
    ∃ items : List (List Char), parts = items.map f ∧ ∀ item ∈ items, P item := by
  induction parts with
  | nil => exact ⟨[], rfl, by simp⟩
  | cons part parts ih =>
      obtain ⟨⟨item, rfl, hitem⟩, hparts⟩ := List.forall_mem_cons.mp h
      obtain ⟨items, rfl, hitems⟩ := ih hparts
      exact ⟨item :: items, rfl, List.forall_mem_cons.mpr ⟨hitem, hitems⟩⟩

-- One item, and any number of others behind separators.
theorem denotes_separated {e : Regex} {sep : Char} :
    (seq e (star (seq (char sep) e))).Denotes text ↔
      ∃ items, items ≠ [] ∧ text = Text.joinWith [sep] items ∧ ∀ item ∈ items, e.Denotes item := by
  constructor
  · rintro ⟨first, _, rfl, hfirst, parts, rfl, -, -, hparts⟩
    have hbehind : ∀ part ∈ parts, ∃ item, part = [sep] ++ item ∧ e.Denotes item := by
      intro part hpart
      obtain ⟨x, item, rfl, hx, hitem⟩ := hparts part hpart
      exact ⟨item, by rw [denotes_char.mp hx], hitem⟩
    obtain ⟨rest, rfl, hrest⟩ := exists_items hbehind
    exact ⟨first :: rest, List.cons_ne_nil _ _, (Text.joinWith_cons _ _ _).symm,
      List.forall_mem_cons.mpr ⟨hfirst, hrest⟩⟩
  · rintro ⟨items, hne, rfl, hitems⟩
    obtain ⟨first, rest, rfl⟩ := List.exists_cons_of_ne_nil hne
    obtain ⟨hfirst, hrest⟩ := List.forall_mem_cons.mp hitems
    refine ⟨first, _, Text.joinWith_cons _ _ _, hfirst, _, rfl, Nat.zero_le _, by simp, ?_⟩
    intro part hpart
    obtain ⟨item, hitem, rfl⟩ := List.mem_map.mp hpart
    exact ⟨[sep], item, rfl, denotes_char.mpr rfl, hrest item hitem⟩

-- One item or more before separators, and a last one.
theorem denotes_terminated {e : Regex} {sep : Char} :
    (seq (plus (seq e (char sep))) e).Denotes text ↔
      ∃ items, 2 ≤ items.length ∧ text = Text.joinWith [sep] items ∧
        ∀ item ∈ items, e.Denotes item := by
  constructor
  · rintro ⟨_, last, rfl, ⟨parts, rfl, hmin, -, hparts⟩, hlast⟩
    have hbefore : ∀ part ∈ parts, ∃ item, part = item ++ [sep] ∧ e.Denotes item := by
      intro part hpart
      obtain ⟨item, x, rfl, hitem, hx⟩ := hparts part hpart
      exact ⟨item, by rw [denotes_char.mp hx], hitem⟩
    obtain ⟨items, rfl, hitems⟩ := exists_items hbefore
    refine ⟨items ++ [last], ?_, (Text.joinWith_append_singleton _ _ _).symm, ?_⟩
    · rw [List.length_map] at hmin
      simpa using hmin
    · exact List.forall_mem_append.mpr ⟨hitems, List.forall_mem_singleton.mpr hlast⟩
  · rintro ⟨items, hlength, rfl, hitems⟩
    obtain rfl | ⟨front, last, rfl⟩ := List.eq_nil_or_concat' items
    · cases hlength
    · obtain ⟨hfront, hlast⟩ := List.forall_mem_append.mp hitems
      refine ⟨_, last, Text.joinWith_append_singleton _ _ _, ⟨_, rfl, ?_, by simp, ?_⟩,
        hlast last (List.mem_singleton_self last)⟩
      · rw [List.length_map]
        simpa using hlength
      · intro part hpart
        obtain ⟨item, hitem, rfl⟩ := List.mem_map.mp hpart
        exact ⟨item, [sep], rfl, hfront item hitem, denotes_char.mpr rfl⟩

theorem length_flatten_of_singletons {parts : List (List Char)}
    (h : ∀ part ∈ parts, ∃ c, part = [c]) : parts.flatten.length = parts.length := by
  induction parts with
  | nil => rfl
  | cons part rest ih =>
      obtain ⟨⟨c, rfl⟩, hrest⟩ := List.forall_mem_cons.mp h
      rw [List.flatten_cons, List.length_append, ih hrest, List.length_singleton, List.length_cons,
        Nat.add_comm]

-- A run of characters of one set, as long as the bounds allow.
theorem denotes_rep_chars {set : CharClass} {min : Nat} {max : Option Nat} :
    (rep (chars set) min max).Denotes text ↔
      min ≤ text.length ∧ (∀ m ∈ max, text.length ≤ m) ∧ ∀ c ∈ text, set.mem c = true := by
  constructor
  · rintro ⟨parts, rfl, hmin, hmax, hparts⟩
    rw [length_flatten_of_singletons fun part hpart => (hparts part hpart).imp fun _ h => h.2]
    refine ⟨hmin, hmax, fun c hc => ?_⟩
    obtain ⟨part, hpart, hc⟩ := List.mem_flatten.mp hc
    obtain ⟨d, hd, rfl⟩ := hparts part hpart
    rwa [List.mem_singleton.mp hc]
  · rintro ⟨hmin, hmax, hset⟩
    refine ⟨text.map ([·]), ?_, by rwa [List.length_map], by rwa [List.length_map], ?_⟩
    · rw [← List.flatMap_def, List.flatMap_singleton']
    · intro part hpart
      obtain ⟨c, hc, rfl⟩ := List.mem_map.mp hpart
      exact ⟨c, hset c hc, rfl⟩

end Rulebook.Regex
