import Rulebook.Proofs.Json.Equal
import Rulebook.Proofs.Validator.Descriptor
import Rulebook.Regex.Engine

namespace Rulebook

namespace Json

-- Equality by value: numbers are equal if their exact values are, wherever they stand.
def Equal : Json → Json → Prop :=
  EqualBy fun m n => m.value = n.value

-- The numbers inside an array or an object.
def Inside (n : Number) (value : Json) : Prop :=
  Holds n value ∧ value ≠ .num n

-- What an allowed value lets pass: data of equal values whose numbers are of one kind, and a
-- number that is merged with a number.
inductive Admits : Json → Json → Prop
  | same {a b : Json} (h : EqualBy (fun m n => m.value = n.value ∧ m.isFloat = n.isFloat) a b) :
      Admits a b
  | merged {m n : Number} (h : m.Merged n) : Admits (.num m) (.num n)

theorem allows_iff {a b : Json} (ha : a.Distinct) (hb : b.Distinct) :
    Leaf.allows a b = true ↔ Admits a b := by
  constructor
  · intro h
    unfold Leaf.allows at h
    split at h
    · next m n =>
        refine .merged ?_
        rcases Bool.or_eq_true_iff.mp h with hsame | hrounded
        · exact Number.units_eq_of_same hsame
        · exact eq_of_beq hrounded
    · exact .same ((same_iff_equalBy ha hb).mp h)
  · intro h
    cases h with
    | same h =>
        have hsame := (same_iff_equalBy ha hb).mpr h
        unfold Leaf.allows
        split
        · exact Bool.or_eq_true_iff.mpr (.inl hsame)
        · exact hsame
    | merged h => exact Bool.or_eq_true_iff.mpr (.inr (beq_iff_eq.mpr h))

-- Without numbers that are merged, and without equal numbers of two kinds inside arrays and
-- objects, this is equality by value.
theorem admits_iff_equal {a b : Json}
    (hmerged : ∀ m n, a = .num m → b = .num n → m.Merged n → m.value = n.value)
    (hkinds : ∀ m n, Inside m a → Inside n b → m.value = n.value → m.isFloat = n.isFloat) :
    Admits a b ↔ Equal a b := by
  constructor
  · intro h
    cases h with
    | same h => exact h.of_forall fun _ _ _ _ => And.left
    | merged h => exact .num (hmerged _ _ rfl rfl h)
  · intro h
    have hdata (ha : ∀ m, a ≠ .num m) (hb : ∀ n, b ≠ .num n) : Admits a b :=
      .same (h.of_forall fun m n hm hn heq => ⟨heq, hkinds m n ⟨hm, ha m⟩ ⟨hn, hb n⟩ heq⟩)
    cases h with
    | null | bool b | str s => exact hdata (by simp) (by simp)
    | num h => exact .merged (Number.units_toBinary64_eq (Number.value_inj.mp h))
    | arr hlength hitems => exact hdata (by simp) (by simp)
    | obj hnames hmembers => exact hdata (by simp) (by simp)

end Json

namespace Leaf

-- How an enumeration refuses a value.
def notAllowed (allowed : List Json) : Failure :=
  .invalid "should be one of %s" [listing allowed]

-- What a list of allowed values says of a value.
structure Chooses (allowed : List Json) (value : Json) (failure : Option Failure) : Prop where
  fails : failure ≠ none → failure = some (notAllowed allowed)
  passes_iff : failure = none ↔ ∃ a ∈ allowed, a.Admits value
  equal : (∀ m n, .num m ∈ allowed → value = .num n → m.Merged n → m.value = n.value) →
    (∀ a ∈ allowed, ∀ m n, a.Inside m → value.Inside n → m.value = n.value →
      m.isFloat = n.isFloat) →
    (failure = none ↔ ∃ a ∈ allowed, a.Equal value)

theorem verdict_enum (allowed : List Json) (value : Json) (context : Context) :
    (enum allowed).verdict value context =
      .ofOption (if allowed.any (allows · value) then none else some (notAllowed allowed)) := by
  rw [verdict, Verdict.when]
  cases allowed.any (allows · value) <;> rfl

theorem exists_chooses {allowed : List Json} (hallowed : ∀ a ∈ allowed, a.Distinct) {value : Json}
    (hvalue : value.Distinct) :
    ∃ failure, (∀ context, (enum allowed).verdict value context = .ofOption failure) ∧
      Chooses allowed value failure := by
  have hany : allowed.any (allows · value) = true ↔ ∃ a ∈ allowed, a.Admits value := by
    rw [List.any_eq_true]
    exact exists_congr fun a => and_congr_right fun hmem => Json.allows_iff (hallowed a hmem) hvalue
  have hpasses :
      (if allowed.any (allows · value) then none else some (notAllowed allowed)) = none ↔
        ∃ a ∈ allowed, a.Admits value := by
    rw [← hany]
    cases allowed.any (allows · value) <;> simp
  refine ⟨_, verdict_enum allowed value, ?_, hpasses, fun hmerged hkinds => ?_⟩
  · intro h
    rw [if_neg fun hpasses => h (if_pos hpasses)]
  · rw [hpasses]
    refine exists_congr fun a => and_congr_right fun hmem => ?_
    refine Json.admits_iff_equal (fun m n hm hn => ?_) (hkinds a hmem)
    exact hmerged m n (hm ▸ hmem) hn

end Leaf

namespace Registry

-- A list of allowed values compiles, and lets pass what one of them admits. That is what
-- equals one of them by value, but for numbers that are merged and for equal numbers of two
-- kinds inside arrays and objects.
theorem compileRule_enum [Engine] {registry : Registry} {spec : Spec} {d : Descriptor}
    (hspec : spec.StandsFor d) (hentry : registry.resolve d.kind = some (.builtin .enum))
    (hrequired : d.required = true →
      registry.resolve RuleOf.requiredName = some (.builtin .required))
    {allowed : List Json} (hvalues : Json.present? "values" d.options = some (.arr allowed))
    (hallowed : ∀ a ∈ allowed, a.Distinct) (field : String) :
    ∃ rule, registry.compileRule field spec = .ok rule ∧
      ∀ value : Json, value.Distinct → value.isNull = false →
        (d.required = true → value.isBlank = false) →
        ∃ failure : Option Failure,
          rule.Answers d.kind value failure ∧ Leaf.Chooses allowed value failure := by
  have hbuild : (Entry.builtin .enum).build (d.args field) [] = .ok (.leaf (.enum allowed)) := by
    have hget : (d.args field).get? "values" = some (.arr allowed) := hvalues
    simp [Entry.build, Builtin.build, Builtin.enumValues, hget, bind, Except.bind]
  obtain ⟨rule, hrule, hanswers⟩ := exists_compileRule_leaf hentry rfl hbuild hrequired
  refine ⟨rule, (compileRule_standsFor hspec).trans hrule, fun value hvalue hnull hblank => ?_⟩
  obtain ⟨failure, hverdict, hchooses⟩ := Leaf.exists_chooses hallowed hvalue
  exact ⟨failure, hanswers hnull hblank hverdict, hchooses⟩

end Registry

-- Equal numbers of two kinds.
namespace Menu

def two : Number := .int 2 (by decide)

def twoFloat : Number := .float (Binary64.ofInt 2 (by decide))

def rule (allowed : List Json) : Rule :=
  .ofChecks [("enum", .leaf (.enum allowed))]

theorem compileRule [Engine] (allowed : List Json) :
    Registry.compileRule {} "n" (.values allowed) = .ok (rule allowed) := by
  rw [Registry.compileRule]
  rfl

theorem answers {allowed : List Json} {value : Json} (hnull : value.isNull = false) :
    (rule allowed).Answers "enum" value
      (if allowed.any (Leaf.allows · value) then none else some (Leaf.notAllowed allowed)) := by
  intro run record path
  rw [rule, Run.rule, if_neg (by simp [hnull]), RuleOf.checks_ofChecks_singleton,
    run.checks_leaf (Leaf.verdict_enum allowed value _)]

theorem not_equal_next : ¬Json.Equal (.num .twoPow53) (.num .nextTwoPow53) := by
  intro h
  cases h with
  | num h => exact absurd h (ne_of_lt Number.twoPow53_lt_next)

theorem equal_twoFloat : Json.Equal (.arr [.num two]) (.arr [.num twoFloat]) := by
  refine .arr rfl fun {x y} hpair => ?_
  obtain ⟨rfl, rfl⟩ := Prod.mk.inj (List.mem_singleton.mp hpair)
  refine .num (Number.value_inj.mpr ?_)
  decide +kernel

end Menu

open scoped Regex

theorem Registry.compileRule_enum_kinds :
    (Registry.compileRule {} "n" (.values [.num .twoPow53]) = .ok (Menu.rule [.num .twoPow53]) ∧
      (Menu.rule [.num .twoPow53]).Answers "enum" (.num .nextTwoPow53) none ∧
      ¬∃ a ∈ [Json.num .twoPow53], a.Equal (.num .nextTwoPow53)) ∧
    (Registry.compileRule {} "n" (.values [.arr [.num Menu.two]]) =
        .ok (Menu.rule [.arr [.num Menu.two]]) ∧
      (Menu.rule [.arr [.num Menu.two]]).Answers "enum" (.arr [.num Menu.twoFloat])
        (some (.invalid "should be one of %s" ["[2]"])) ∧
      ∃ a ∈ [Json.arr [.num Menu.two]], a.Equal (.arr [.num Menu.twoFloat])) := by
  have hpasses : (if [Json.num .twoPow53].any (Leaf.allows · (.num .nextTwoPow53)) then none
      else some (Leaf.notAllowed [.num .twoPow53])) = none := by
    decide +kernel
  have hfails : (if [Json.arr [.num Menu.two]].any (Leaf.allows · (.arr [.num Menu.twoFloat]))
      then none else some (Leaf.notAllowed [.arr [.num Menu.two]])) =
      some (.invalid "should be one of %s" ["[2]"]) := by
    decide +kernel
  refine ⟨⟨Menu.compileRule _, ?_, ?_⟩, Menu.compileRule _, ?_, _, List.mem_singleton_self _,
    Menu.equal_twoFloat⟩
  · rw [← hpasses]
    exact Menu.answers rfl
  · rintro ⟨a, hmem, h⟩
    obtain rfl := List.mem_singleton.mp hmem
    exact Menu.not_equal_next h
  · rw [← hfails]
    exact Menu.answers rfl

open scoped Regex

theorem Registry.compileRule_enum_two :
    ∃ rule, Registry.compileRule {} "n" (.values [.num Menu.two, .str "two"]) = .ok rule ∧
      rule.Answers "enum" (.num Menu.twoFloat) none := by
  have hdistinct : ∀ a ∈ [Json.num Menu.two, .str "two"], a.Distinct :=
    List.forall_mem_cons.mpr ⟨.num _, List.forall_mem_singleton.mpr (.str _)⟩
  have hentry : Registry.resolve {} "enum" = some (.builtin .enum) := rfl
  obtain ⟨rule, hrule, hchooses⟩ :=
    compileRule_enum (.values _) hentry (fun h => nomatch h) rfl hdistinct "n"
  obtain ⟨failure, hanswers, hchoice⟩ :=
    hchooses (.num Menu.twoFloat) (.num _) rfl fun h => nomatch h
  have hpasses : failure = none := by
    refine hchoice.passes_iff.mpr ⟨.num Menu.two, List.mem_cons_self, .merged ?_⟩
    rw [Number.Merged]
    decide +kernel
  exact ⟨rule, hrule, hpasses ▸ hanswers⟩

end Rulebook
