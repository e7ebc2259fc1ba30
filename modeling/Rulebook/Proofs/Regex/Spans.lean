import Mathlib.Data.Option.Basic
import Mathlib.Tactic.SplitIfs
import Rulebook.Proofs.Regex.CharClass
import Rulebook.Regex.Search

namespace Rulebook.Regex

-- The characters on the two sides of a place between two texts.
def charBefore (before : Option Char) (text : List Char) : Option Char :=
  text.getLast?.or before

def charAfter (text : List Char) (after : Option Char) : Option Char :=
  text.head?.or after

-- A text in as many parts, each of which is a round between its neighbours.
def Rounds (round : Option Char → Option Char → List Char → Prop) :
    Nat → Option Char → Option Char → List Char → Prop
  | 0, _, _, text => text = []
  | n + 1, before, after, text => ∃ x y, text = x ++ y ∧
      round before (charAfter y after) x ∧ Rounds round n (charBefore before x) after y

-- The texts that an expression stands for, between the characters on their two sides.
def Spans : Regex → Option Char → Option Char → List Char → Prop
  | empty, _, _, text => text = []
  | chars set, _, _, text => ∃ c, set.mem c = true ∧ text = [c]
  | look condition, before, after, text => condition.holds before after = true ∧ text = []
  | seq a b, before, after, text => ∃ x y, text = x ++ y ∧
      a.Spans before (charAfter y after) x ∧ b.Spans (charBefore before x) after y
  | alt a b, before, after, text => a.Spans before after text ∨ b.Spans before after text
  | rep body min max, before, after, text => ∃ n, min ≤ n ∧ (∀ m ∈ max, n ≤ m) ∧
      Rounds body.Spans n before after text

-- No repetition asks for more rounds than it allows.
def settled : Regex → Bool
  | seq a b => a.settled && b.settled
  | alt a b => a.settled && b.settled
  | rep body min max => body.settled && max.all (min ≤ ·)
  | _ => true

variable {round : Option Char → Option Char → List Char → Prop}
  {before after : Option Char} {c : Char} {cs text : List Char} {n : Nat}

theorem charBefore_cons (before : Option Char) (c : Char) (x : List Char) :
    charBefore before (c :: x) = charBefore (some c) x := by
  unfold charBefore
  cases x with
  | nil => rfl
  | cons d x =>
      rw [List.getLast?_cons_cons, List.getLast?_cons]
      rfl

theorem spans_andThen (a b : Regex) :
    (a.andThen b).Spans before after text ↔ (seq a b).Spans before after text := by
  unfold andThen
  split
  · constructor
    · intro hspans
      exact ⟨[], text, rfl, rfl, hspans⟩
    · rintro ⟨_, y, rfl, rfl, hspans⟩
      exact hspans
  · constructor
    · intro hspans
      exact ⟨text, [], (List.append_nil text).symm, hspans, rfl⟩
    · rintro ⟨x, _, rfl, hspans, rfl⟩
      rwa [List.append_nil]
  · rfl

theorem settled_andThen {a b : Regex} (ha : a.settled = true) (hb : b.settled = true) :
    (a.andThen b).settled = true := by
  unfold andThen
  split
  · exact hb
  · exact ha
  · rw [settled, ha, hb, Bool.and_self]

-- Rounds that are empty can be done at one place as often as is wanted.
theorem Rounds.replicate (h : round before after []) (n : Nat) :
    Rounds round n before after [] := by
  induction n with
  | zero => rfl
  | succ n ih => exact ⟨[], [], rfl, h, ih⟩

theorem Rounds.pad (hempty : round before (some c) [])
    (h : Rounds round n before after (c :: cs)) (m : Nat) :
    Rounds round (n + m) before after (c :: cs) := by
  induction m with
  | zero => exact h
  | succ m ih => exact ⟨[], c :: cs, rfl, hempty, ih⟩

-- The first round that reads a character is preceded by empty rounds only.
theorem Rounds.cons (h : Rounds round n before after (c :: cs)) :
    ∃ m < n, (m + 1 = n ∨ round before (some c) []) ∧ ∃ x y, cs = x ++ y ∧
      round before (charAfter y after) (c :: x) ∧
        Rounds round m (charBefore (some c) x) after y := by
  induction n with
  | zero => cases h
  | succ n ih =>
      obtain ⟨x, y, htext, hx, hy⟩ := h
      cases x with
      | nil =>
          obtain rfl : c :: cs = y := htext
          obtain ⟨m, hm, -, hrest⟩ := ih hy
          exact ⟨m, Nat.lt_succ_of_lt hm, .inr hx, hrest⟩
      | cons d x =>
          obtain ⟨rfl, rfl⟩ := List.cons.inj htext
          rw [charBefore_cons] at hy
          exact ⟨n, Nat.lt_succ_self n, .inl rfl, x, y, rfl, hx, hy⟩

theorem nullable_iff {e : Regex} (he : e.settled = true) (before after : Option Char) :
    e.nullable before after = true ↔ e.Spans before after [] := by
  induction e generalizing before after with
  | empty => simp [nullable, Spans]
  | chars set => simp [nullable, Spans]
  | look condition => simp [nullable, Spans]
  | seq a b iha ihb =>
      simp only [settled, Bool.and_eq_true] at he
      simp only [nullable, Bool.and_eq_true, iha he.1, ihb he.2, Spans]
      constructor
      · rintro ⟨ha, hb⟩
        exact ⟨[], [], rfl, ha, hb⟩
      · rintro ⟨x, y, htext, ha, hb⟩
        obtain ⟨rfl, rfl⟩ := List.append_eq_nil_iff.mp htext.symm
        exact ⟨ha, hb⟩
  | alt a b iha ihb =>
      simp only [settled, Bool.and_eq_true] at he
      simp only [nullable, Bool.or_eq_true, iha he.1, ihb he.2, Spans]
  | rep body min max ih =>
      simp only [settled, Bool.and_eq_true, Option.all_eq_true, decide_eq_true_eq] at he
      simp only [nullable, Bool.or_eq_true, beq_iff_eq, ih he.1, Spans]
      constructor
      · rintro (rfl | hbody)
        · exact ⟨0, Nat.le_refl 0, fun m _ => Nat.zero_le m, rfl⟩
        · exact ⟨min, Nat.le_refl min, fun m hm => he.2 m hm, .replicate hbody min⟩
      · rintro ⟨n, hmin, -, hrounds⟩
        cases n with
        | zero => exact .inl (Nat.le_zero.mp hmin)
        | succ n =>
            obtain ⟨x, y, htext, hx, -⟩ := hrounds
            obtain ⟨rfl, rfl⟩ := List.append_eq_nil_iff.mp htext.symm
            exact .inr hx

-- What is left of a settled expression is settled.
theorem settled_step {e d : Regex} (he : e.settled = true) (hd : d ∈ e.step before c) :
    d.settled = true := by
  induction e generalizing d with
  | empty => cases hd
  | look condition => cases hd
  | chars set =>
      simp only [step] at hd
      split at hd
      · rw [List.mem_singleton.mp hd]
        rfl
      · cases hd
  | seq a b iha ihb =>
      simp only [settled, Bool.and_eq_true] at he
      simp only [step, List.mem_append, List.mem_map] at hd
      rcases hd with ⟨a', ha', rfl⟩ | hd
      · exact settled_andThen (iha he.1 ha') he.2
      · split at hd
        · exact ihb he.2 hd
        · cases hd
  | alt a b iha ihb =>
      simp only [settled, Bool.and_eq_true] at he
      simp only [step, List.mem_append] at hd
      exact hd.elim (iha he.1) (ihb he.2)
  | rep body min max ih =>
      simp only [settled, Bool.and_eq_true, Option.all_eq_true, decide_eq_true_eq] at he
      simp only [step] at hd
      split at hd
      · cases hd
      · obtain ⟨body', hbody', rfl⟩ := List.mem_map.mp hd
        apply settled_andThen (ih he.1 hbody')
        simp only [settled, he.1, Bool.true_and, Option.all_eq_true, Option.map_eq_some_iff,
          decide_eq_true_eq]
        rintro m ⟨limit, hlimit, rfl⟩
        have hle := he.2 limit hlimit
        split <;> omega

-- What is left after a character is what the expression reads after it.
theorem spans_cons_iff {e : Regex} (he : e.settled = true) :
    e.Spans before after (c :: cs) ↔ ∃ d ∈ e.step before c, d.Spans (some c) after cs := by
  induction e generalizing before after cs with
  | empty => simp [Spans, step]
  | look condition => simp [Spans, step]
  | chars set =>
      simp only [Spans, step, List.cons.injEq]
      constructor
      · rintro ⟨d, hd, rfl, rfl⟩
        simp [hd, Spans]
      · rintro ⟨d, hd, hspans⟩
        split at hd
        · rename_i hmem
          obtain rfl := List.mem_singleton.mp hd
          exact ⟨c, hmem, rfl, hspans⟩
        · cases hd
  | seq a b iha ihb =>
      simp only [settled, Bool.and_eq_true] at he
      simp only [step, List.mem_append, List.mem_map]
      constructor
      · rintro ⟨x, y, htext, hx, hy⟩
        cases x with
        | nil =>
            obtain rfl : c :: cs = y := htext
            obtain ⟨d, hd, hspans⟩ := (ihb he.2).mp hy
            have hnullable := (nullable_iff he.1 before (some c)).mpr hx
            exact ⟨d, .inr (by rwa [if_pos hnullable]), hspans⟩
        | cons d x =>
            obtain ⟨rfl, rfl⟩ := List.cons.inj htext
            obtain ⟨a', ha', hspans⟩ := (iha he.1).mp hx
            rw [charBefore_cons] at hy
            exact ⟨_, .inl ⟨a', ha', rfl⟩, (spans_andThen a' b).mpr ⟨x, y, rfl, hspans, hy⟩⟩
      · rintro ⟨d, ⟨a', ha', rfl⟩ | hd, hspans⟩
        · obtain ⟨x, y, rfl, hx, hy⟩ := (spans_andThen a' b).mp hspans
          rw [← charBefore_cons before c x] at hy
          exact ⟨c :: x, y, rfl, (iha he.1).mpr ⟨a', ha', hx⟩, hy⟩
        · split at hd
          · rename_i hnullable
            exact ⟨[], c :: cs, rfl, (nullable_iff he.1 before (some c)).mp hnullable,
              (ihb he.2).mpr ⟨d, hd, hspans⟩⟩
          · cases hd
  | alt a b iha ihb =>
      simp only [settled, Bool.and_eq_true] at he
      simp only [Spans, step, List.mem_append, iha he.1, ihb he.2]
      simp only [or_and_right, exists_or]
  | rep body min max ih =>
      simp only [settled, Bool.and_eq_true, Option.all_eq_true, decide_eq_true_eq] at he
      obtain ⟨hbody, hmax⟩ := he
      simp only [Spans, step]
      constructor
      · rintro ⟨n, hmin, hlimit, hrounds⟩
        obtain ⟨m, hm, hfirst, x, y, rfl, hx, hy⟩ := hrounds.cons
        obtain ⟨d, hd, hspans⟩ := (ih hbody).mp hx
        have hpositive : max ≠ some 0 := by
          rintro rfl
          have := hlimit 0 rfl
          omega
        rw [if_neg hpositive]
        refine ⟨_, List.mem_map.mpr ⟨d, hd, rfl⟩, (spans_andThen d _).mpr ⟨x, y, rfl, hspans, ?_⟩⟩
        refine ⟨m, ?_, ?_, hy⟩
        · split_ifs with hnullable
          · exact Nat.zero_le m
          · rcases hfirst with hfirst | hempty
            · omega
            · exact absurd ((nullable_iff hbody before (some c)).mpr hempty) hnullable
        · intro limit hmem
          obtain ⟨most, hmost, rfl⟩ := Option.map_eq_some_iff.mp hmem
          have := hlimit most hmost
          omega
      · rintro ⟨d, hd, hspans⟩
        split at hd
        · cases hd
        · rename_i hpositive
          obtain ⟨body', hbody', rfl⟩ := List.mem_map.mp hd
          obtain ⟨x, y, rfl, hx, m, howed, hlimit, hy⟩ := (spans_andThen body' _).mp hspans
          have hround : body.Spans before _ (c :: x) := (ih hbody).mpr ⟨body', hbody', hx⟩
          rw [← charBefore_cons before c x] at hy
          have hrounds : Rounds body.Spans (m + 1) before after (c :: (x ++ y)) :=
            ⟨c :: x, y, rfl, hround, hy⟩
          have hmost : ∀ most ∈ max, m + 1 ≤ most := by
            intro most hmem
            have hle := hlimit (most - 1) (Option.map_eq_some_iff.mpr ⟨most, hmem, rfl⟩)
            have hne : most ≠ 0 := by
              rintro rfl
              exact hpositive hmem
            omega
          by_cases hnullable : body.nullable before (some c) = true
          · -- Rounds that are owed can be empty ones before the first that reads a character.
            have hempty := (nullable_iff hbody before (some c)).mp hnullable
            refine ⟨m + 1 + (min - (m + 1)), by omega, fun most hmem => ?_,
              hrounds.pad hempty (min - (m + 1))⟩
            have := hmost most hmem
            have := hmax most hmem
            omega
          · rw [if_neg hnullable] at howed
            exact ⟨m + 1, by omega, hmost, hrounds⟩

theorem mem_distinct {e : Regex} {es : List Regex} : e ∈ distinct es ↔ e ∈ es := by
  unfold distinct
  split
  · exact List.mem_eraseDups
  · rw [Std.HashSet.mem_toList, Std.HashSet.mem_ofList, List.contains_iff_mem]

-- A match that begins here, and one that begins here or later.
def Begins (e : Regex) (before : Option Char) (text : List Char) : Prop :=
  ∃ x y, text = x ++ y ∧ e.Spans before (charAfter y none) x

def Occurs (e : Regex) (before : Option Char) (text : List Char) : Prop :=
  ∃ x y, text = x ++ y ∧ e.Begins (charBefore before x) y

theorem begins_nil_iff {e : Regex} (he : e.settled = true) :
    e.Begins before [] ↔ e.nullable before none = true := by
  rw [nullable_iff he]
  constructor
  · rintro ⟨x, y, htext, hspans⟩
    obtain ⟨rfl, rfl⟩ := List.append_eq_nil_iff.mp htext.symm
    exact hspans
  · intro hspans
    exact ⟨[], [], rfl, hspans⟩

theorem begins_cons_iff {e : Regex} (he : e.settled = true) :
    e.Begins before (c :: cs) ↔
      e.nullable before (some c) = true ∨ ∃ d ∈ e.step before c, d.Begins (some c) cs := by
  rw [nullable_iff he]
  constructor
  · rintro ⟨x, y, htext, hspans⟩
    cases x with
    | nil =>
        obtain rfl : c :: cs = y := htext
        exact .inl hspans
    | cons d x =>
        obtain ⟨rfl, rfl⟩ := List.cons.inj htext
        obtain ⟨d, hd, hrest⟩ := (spans_cons_iff he).mp hspans
        exact .inr ⟨d, hd, x, y, rfl, hrest⟩
  · rintro (hspans | ⟨d, hd, x, y, rfl, hspans⟩)
    · exact ⟨[], c :: cs, rfl, hspans⟩
    · exact ⟨c :: x, y, rfl, (spans_cons_iff he).mpr ⟨d, hd, hspans⟩⟩

theorem occurs_nil_iff {e : Regex} : e.Occurs before [] ↔ e.Begins before [] := by
  constructor
  · rintro ⟨x, y, htext, hbegins⟩
    obtain ⟨rfl, rfl⟩ := List.append_eq_nil_iff.mp htext.symm
    exact hbegins
  · intro hbegins
    exact ⟨[], [], rfl, hbegins⟩

theorem occurs_cons_iff {e : Regex} :
    e.Occurs before (c :: cs) ↔ e.Begins before (c :: cs) ∨ e.Occurs (some c) cs := by
  constructor
  · rintro ⟨x, y, htext, hbegins⟩
    cases x with
    | nil =>
        obtain rfl : c :: cs = y := htext
        exact .inl hbegins
    | cons d x =>
        obtain ⟨rfl, rfl⟩ := List.cons.inj htext
        rw [charBefore_cons] at hbegins
        exact .inr ⟨x, y, rfl, hbegins⟩
  · rintro (hbegins | ⟨x, y, rfl, hbegins⟩)
    · exact ⟨[], c :: cs, rfl, hbegins⟩
    · rw [← charBefore_cons before] at hbegins
      exact ⟨c :: x, y, rfl, hbegins⟩

-- The search keeps exactly what may still come of the matches that have begun.
theorem search_iff {e : Regex} (he : e.settled = true) {begun : List Regex}
    (hbegun : ∀ d ∈ begun, d.settled = true) :
    e.search before begun text = true ↔
      e.Occurs before text ∨ ∃ d ∈ begun, d.Begins before text := by
  induction text generalizing before begun with
  | nil =>
      rw [search, List.any_cons, Bool.or_eq_true, List.any_eq_true, occurs_nil_iff,
        begins_nil_iff he]
      refine or_congr_right (exists_congr fun d => and_congr_right fun hd => ?_)
      exact (begins_nil_iff (hbegun d hd)).symm
  | cons c cs ih =>
      have hnext : ∀ d ∈ distinct ((e :: begun).flatMap (step before c)), d.settled = true := by
        intro d hd
        obtain ⟨d', hd', hstep⟩ := List.mem_flatMap.mp (mem_distinct.mp hd)
        rcases List.mem_cons.mp hd' with rfl | hd'
        · exact settled_step he hstep
        · exact settled_step (hbegun d' hd') hstep
      rw [search, Bool.or_eq_true, ih hnext, occurs_cons_iff]
      simp only [mem_distinct, List.mem_flatMap, List.any_eq_true]
      constructor
      · rintro (⟨d, hd, hnullable⟩ | hlater | ⟨d, ⟨d', hd', hstep⟩, hbegins⟩)
        · rcases List.mem_cons.mp hd with rfl | hd
          · exact .inl (.inl ((begins_cons_iff he).mpr (.inl hnullable)))
          · exact .inr ⟨d, hd, (begins_cons_iff (hbegun d hd)).mpr (.inl hnullable)⟩
        · exact .inl (.inr hlater)
        · rcases List.mem_cons.mp hd' with rfl | hd'
          · exact .inl (.inl ((begins_cons_iff he).mpr (.inr ⟨d, hstep, hbegins⟩)))
          · exact .inr ⟨d', hd', (begins_cons_iff (hbegun d' hd')).mpr (.inr ⟨d, hstep, hbegins⟩)⟩
      · rintro ((hbegins | hlater) | ⟨d, hd, hbegins⟩)
        · rcases (begins_cons_iff he).mp hbegins with hnullable | ⟨d, hstep, hbegins⟩
          · exact .inl ⟨e, List.mem_cons_self, hnullable⟩
          · exact .inr (.inr ⟨d, ⟨e, List.mem_cons_self, hstep⟩, hbegins⟩)
        · exact .inr (.inl hlater)
        · rcases (begins_cons_iff (hbegun d hd)).mp hbegins with hnullable | ⟨d', hstep, hbegins⟩
          · exact .inl ⟨d, List.mem_cons_of_mem _ hd, hnullable⟩
          · exact .inr (.inr ⟨d', ⟨d, List.mem_cons_of_mem _ hd, hstep⟩, hbegins⟩)

-- A text has a match exactly if some part of it is one that the expression stands for.
theorem isMatch_iff {e : Regex} (he : e.settled = true) :
    e.isMatch text = true ↔ e.Occurs none text := by
  rw [isMatch, search_iff he (by simp)]
  simp

-- The bounds of the text leave no other part than the text itself.
theorem isMatch_whole_iff {e : Regex} (he : e.settled = true) :
    (whole e).isMatch text = true ↔ e.Spans none none text := by
  have hwhole : (whole e).settled = true := by
    simp [whole, all, settled, he]
  rw [isMatch_iff hwhole]
  constructor
  · rintro ⟨x, y, rfl, u, v, rfl, s, t, rfl, ⟨hstart, rfl⟩, p, q, rfl, hspans, hend, rfl⟩
    simp only [Look.holds, Option.isNone_iff_eq_none, charBefore, charAfter, Option.or_eq_none_iff,
      List.getLast?_eq_none_iff, List.head?_eq_none_iff] at hstart hend
    obtain ⟨rfl, -⟩ := hstart
    obtain ⟨rfl, -⟩ := hend
    simpa [charBefore, charAfter] using hspans
  · intro hspans
    refine ⟨[], text, rfl, text, [], (List.append_nil text).symm, [], text, rfl, ⟨rfl, rfl⟩,
      text, [], (List.append_nil text).symm, ?_, rfl, rfl⟩
    simpa [charBefore, charAfter] using hspans

theorem spans_char {d : Char} : (char d).Spans before after text ↔ text = [d] := by
  simp only [char, Spans, CharClass.mem_single]
  constructor
  · rintro ⟨c, rfl, rfl⟩
    rfl
  · rintro rfl
    exact ⟨d, rfl, rfl⟩

theorem spans_optional {e : Regex} :
    (optional e).Spans before after text ↔ text = [] ∨ e.Spans before after text := by
  constructor
  · rintro ⟨n, -, hmax, hrounds⟩
    have hn := hmax 1 rfl
    cases n with
    | zero => exact .inl hrounds
    | succ n =>
        obtain rfl : n = 0 := by omega
        obtain ⟨x, y, rfl, hx, rfl⟩ := hrounds
        rw [List.append_nil]
        exact .inr hx
  · rintro (rfl | hspans)
    · exact ⟨0, Nat.zero_le 0, fun m _ => Nat.zero_le m, rfl⟩
    · refine ⟨1, Nat.zero_le 1, ?_, text, [], (List.append_nil text).symm, hspans, rfl⟩
      rintro m ⟨⟩
      exact Nat.le_refl 1

-- The characters of the classes of an expression.
def uses : Regex → Char → Bool
  | chars set, c => set.mem c
  | seq a b, c => a.uses c || b.uses c
  | alt a b, c => a.uses c || b.uses c
  | rep body _ _, c => body.uses c
  | _, _ => false

theorem Rounds.forall_mem {P : Char → Prop} (h : Rounds round n before after text)
    (hround : ∀ before after x, round before after x → ∀ c ∈ x, P c) : ∀ c ∈ text, P c := by
  induction n generalizing before text with
  | zero =>
      obtain rfl : text = [] := h
      exact fun c hc => absurd hc List.not_mem_nil
  | succ n ih =>
      obtain ⟨x, y, rfl, hx, hy⟩ := h
      exact List.forall_mem_append.mpr ⟨hround _ _ x hx, ih hy⟩

theorem Spans.uses {e : Regex} (h : e.Spans before after text) : ∀ c ∈ text, e.uses c = true := by
  induction e generalizing before after text with
  | empty =>
      obtain rfl : text = [] := h
      exact fun c hc => absurd hc List.not_mem_nil
  | look condition =>
      obtain ⟨-, rfl⟩ := h
      exact fun c hc => absurd hc List.not_mem_nil
  | chars set =>
      obtain ⟨c, hc, rfl⟩ := h
      exact List.forall_mem_singleton.mpr hc
  | seq a b iha ihb =>
      obtain ⟨x, y, rfl, hx, hy⟩ := h
      intro c hc
      rw [Regex.uses, Bool.or_eq_true]
      exact (List.mem_append.mp hc).imp (iha hx c) (ihb hy c)
  | alt a b iha ihb =>
      intro c hc
      rw [Regex.uses, Bool.or_eq_true]
      exact h.imp (fun ha => iha ha c hc) fun hb => ihb hb c hc
  | rep body min max ih =>
      obtain ⟨n, -, -, hrounds⟩ := h
      exact hrounds.forall_mem fun _ _ _ hx => ih hx

end Rulebook.Regex
