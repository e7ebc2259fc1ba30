import Rulebook.Proofs.Number.Value
import Rulebook.Proofs.Validator.Descriptor
import Rulebook.Regex.Engine

namespace Rulebook

namespace Bound

-- The limit that a number in an option stands for.
def ofNumber (n : Number) : Bound :=
  ⟨n.toBinary64, Text.trim (Json.num n).display⟩

end Bound

namespace Limits

def ofNumbers (min max : Option Number) : Limits :=
  ⟨min.map Bound.ofNumber, max.map Bound.ofNumber⟩

end Limits

namespace Failure

def notWhole : Failure := invalid "should be an integer" []

def above (limit : Number) : Failure :=
  invalid "should smaller than %s" [(Bound.ofNumber limit).text]

def below (limit : Number) : Failure :=
  invalid "should bigger than %s" [(Bound.ofNumber limit).text]

end Failure

namespace Args

variable {args : Args}

theorem bound_eq_ok {name : String} {limit : Option Number}
    (h : args.get? name = limit.map .num) : args.bound name = .ok (limit.map Bound.ofNumber) := by
  rw [bound, h]
  cases limit <;> rfl

theorem limits_eq_ok {min max : Option Number} (hmin : args.get? "min" = min.map .num)
    (hmax : args.get? "max" = max.map .num) :
    Builtin.limits args = .ok (.ofNumbers min max) := by
  rw [Builtin.limits, bound_eq_ok hmin, bound_eq_ok hmax]
  rfl

end Args

namespace Number

-- A number is whole if its exact value is an integer.
def IsWhole (v : Number) : Prop :=
  ∃ n : ℤ, v.value = n

-- A number that is not seen to be above another one.
def Under (v limit : Number) : Prop :=
  v.value ≤ limit.value ∨ v.Merged limit

theorem lt_toBinary64_iff {a b : Number} :
    a.toBinary64.lt b.toBinary64 = true ↔ ¬b.Under a := by
  rw [Binary64.lt, decide_eq_true_eq, Under, ← not_lt_toBinary64_iff, not_not]

theorem under_iff_of_exact {v limit : Number} (hv : v.Exact) (hlimit : limit.Exact) :
    v.Under limit ↔ v.value ≤ limit.value := by
  constructor
  · rintro (h | h)
    · exact h
    · exact (h.value_eq hv hlimit).le
  · exact Or.inl

end Number

namespace Limits

-- The failure of a number between two limits, either of which may be missing.
def failure? (whole : Bool) (min max : Option Number) (v : Number) : Option Failure :=
  if whole && !v.isInteger then some .notWhole
  else (ofNumbers min max).broken v.toBinary64

variable {min max : Option Number} {v : Number}

theorem broken_eq :
    (ofNumbers min max).broken v.toBinary64 =
      ((max.filter fun hi => hi.toBinary64.lt v.toBinary64).map Failure.above).or
        ((min.filter fun lo => v.toBinary64.lt lo.toBinary64).map Failure.below) := by
  have hfilter (limit : Option Number) (p : Bound → Bool) :
      (limit.map Bound.ofNumber).filter p =
        (limit.filter fun n => p (Bound.ofNumber n)).map Bound.ofNumber :=
    Option.filter_map
  simp only [broken, ofNumbers, hfilter, Option.map_map]
  rfl

theorem broken_eq_none_iff :
    (ofNumbers min max).broken v.toBinary64 = none ↔
      (∀ lo ∈ min, lo.Under v) ∧ ∀ hi ∈ max, v.Under hi := by
  simp only [broken_eq, Option.or_eq_none_iff, Option.map_eq_none_iff,
    Option.filter_eq_none_iff, Number.lt_toBinary64_iff, not_not]
  exact and_comm

-- The upper limit is looked at first.
theorem broken_of_above {hi : Number} (hmax : hi ∈ max) (habove : ¬v.Under hi) :
    (ofNumbers min max).broken v.toBinary64 = some (.above hi) := by
  obtain rfl : max = some hi := hmax
  rw [broken_eq, Option.filter_some, if_pos (Number.lt_toBinary64_iff.mpr habove)]
  rfl

theorem broken_of_below {lo : Number} (hmax : ∀ hi ∈ max, v.Under hi) (hmin : lo ∈ min)
    (hbelow : ¬lo.Under v) :
    (ofNumbers min max).broken v.toBinary64 = some (.below lo) := by
  obtain rfl : min = some lo := hmin
  have hfits : max.filter (fun hi => hi.toBinary64.lt v.toBinary64) = none := by
    simpa only [Option.filter_eq_none_iff, Number.lt_toBinary64_iff, not_not,
      Option.mem_def] using hmax
  rw [broken_eq, hfits, Option.filter_some, if_pos (Number.lt_toBinary64_iff.mpr hbelow)]
  rfl

-- What a check says of a number with two limits, either of which may be missing, in terms of
-- the exact values: a number passes if it lies between the limits, or is merged with one that
-- it breaks. Without any integers beyond 2^53 none are merged.
structure Judges (whole : Bool) (min max : Option Number) (v : Number)
    (failure : Option Failure) : Prop where
  passes_iff : failure = none ↔
    (whole = true → v.IsWhole) ∧ (∀ lo ∈ min, lo.value ≤ v.value ∨ lo.Merged v) ∧
      ∀ hi ∈ max, v.value ≤ hi.value ∨ v.Merged hi
  exact : v.Exact → (∀ lo ∈ min, lo.Exact) → (∀ hi ∈ max, hi.Exact) →
    (failure = none ↔ (whole = true → v.IsWhole) ∧ (∀ lo ∈ min, lo.value ≤ v.value) ∧
      ∀ hi ∈ max, v.value ≤ hi.value)
  fraction : whole = true → ¬v.IsWhole → failure = some .notWhole
  above : (whole = true → v.IsWhole) → ∀ hi ∈ max, hi.value < v.value → ¬v.Merged hi →
    failure = some (.above hi)
  below : (whole = true → v.IsWhole) → (∀ hi ∈ max, v.value ≤ hi.value ∨ v.Merged hi) →
    ∀ lo ∈ min, v.value < lo.value → ¬lo.Merged v → failure = some (.below lo)

theorem judges_failure? (whole : Bool) (min max : Option Number) (v : Number) :
    Judges whole min max v (failure? whole min max v) := by
  have hpasses : failure? whole min max v = none ↔
      (whole = true → v.IsWhole) ∧ (∀ lo ∈ min, lo.Under v) ∧ ∀ hi ∈ max, v.Under hi := by
    rw [← broken_eq_none_iff, failure?, Number.IsWhole, ← Number.isInteger_iff]
    cases whole <;> cases v.isInteger <;> simp
  have hwhole (h : whole = true → v.IsWhole) : failure? whole min max v =
      (ofNumbers min max).broken v.toBinary64 := by
    rw [Number.IsWhole, ← Number.isInteger_iff] at h
    rw [failure?, if_neg]
    cases whole <;> simp_all
  refine ⟨hpasses, fun hv hlo hhi => ?_, fun hset hfraction => ?_, ?_, ?_⟩
  · rw [hpasses]
    have hlower : (∀ lo ∈ min, lo.Under v) ↔ ∀ lo ∈ min, lo.value ≤ v.value :=
      forall₂_congr fun lo hmem => Number.under_iff_of_exact (hlo lo hmem) hv
    have hupper : (∀ hi ∈ max, v.Under hi) ↔ ∀ hi ∈ max, v.value ≤ hi.value :=
      forall₂_congr fun hi hmem => Number.under_iff_of_exact hv (hhi hi hmem)
    rw [hlower, hupper]
  · rw [Number.IsWhole, ← Number.isInteger_iff] at hfraction
    rw [failure?, hset, Bool.eq_false_iff.mpr hfraction]
    rfl
  · intro h hi hmem hlt hmerged
    rw [hwhole h]
    exact broken_of_above hmem fun hunder => hunder.elim (not_le_of_gt hlt) hmerged
  · intro h hmax lo hmem hlt hmerged
    rw [hwhole h]
    exact broken_of_below hmax hmem fun hunder => hunder.elim (not_le_of_gt hlt) hmerged

end Limits

namespace Builtin

-- The checks of numbers, with and without a fraction.
def ofWhole (whole : Bool) : Builtin :=
  if whole then int else number

end Builtin

namespace Leaf

def ofLimits (whole : Bool) (limits : Limits) : Leaf :=
  if whole then int limits else number limits

theorem verdict_ofLimits (whole : Bool) (min max : Option Number) (v : Number)
    (context : Context) :
    (ofLimits whole (.ofNumbers min max)).verdict (.num v) context =
      .ofOption (Limits.failure? whole min max v) := by
  cases whole with
  | false => rfl
  | true =>
      have hfails : Verdict.fail (.invalid "should be an integer" []) =
          .ofOption (some .notWhole) := rfl
      by_cases hinteger : v.isInteger = true
      · simp [ofLimits, verdict, Json.number?, Json.isInteger, Limits.failure?, hinteger]
      · simp [ofLimits, verdict, Json.number?, Json.isInteger, Limits.failure?, hinteger, hfails]

end Leaf

namespace Registry

-- A descriptor of a check of numbers compiles with any numbers as its limits, and says of every
-- number what the exact values say, but for integers beyond 2^53.
theorem compileRule_limits [Engine] {registry : Registry} {d : Descriptor} {whole : Bool}
    (hentry : registry.resolve d.kind = some (.builtin (.ofWhole whole)))
    (hrequired : d.required = true →
      registry.resolve RuleOf.requiredName = some (.builtin .required))
    {min max : Option Number} (hmin : Json.present? "min" d.options = min.map .num)
    (hmax : Json.present? "max" d.options = max.map .num) (field : String) :
    ∃ rule, registry.compileRule field (.descriptor d) = .ok rule ∧
      ∀ v : Number, ∃ failure : Option Failure,
        rule.Answers d.kind (.num v) failure ∧ Limits.Judges whole min max v failure := by
  have hlimits : Builtin.limits (d.args field) = .ok (.ofNumbers min max) :=
    Args.limits_eq_ok hmin hmax
  have hbuild : (Entry.builtin (.ofWhole whole)).build (d.args field) [] =
      .ok (.leaf (.ofLimits whole (.ofNumbers min max))) := by
    cases whole <;>
      simp [Entry.build, Builtin.ofWhole, Builtin.build, Leaf.ofLimits, hlimits, bind, Except.bind]
  have hparts : (Entry.builtin (.ofWhole whole)).parts (d.args field) = .ok [] := by
    cases whole <;> rfl
  obtain ⟨rule, hrule, hanswers⟩ := exists_compileRule_leaf hentry hparts hbuild hrequired
  refine ⟨rule, hrule, fun v => ⟨_, ?_, Limits.judges_failure? whole min max v⟩⟩
  exact hanswers rfl (fun _ => rfl) (Leaf.verdict_ofLimits whole min max v)

end Registry

-- A lower limit of zero and an upper limit of 2^53.
namespace Quota

def least : Number := .int 0 (by decide)

def kind (whole : Bool) : String :=
  if whole then "int" else "number"

def descriptor (whole : Bool) : Descriptor :=
  { kind := kind whole, options := [("min", .num least), ("max", .num .twoPow53)] }

def rule (whole : Bool) : Rule :=
  .ofChecks [(kind whole, .leaf (.ofLimits whole (.ofNumbers (some least) (some .twoPow53))))]

theorem compileRule [Engine] (whole : Bool) :
    Registry.compileRule {} "n" (.descriptor (descriptor whole)) = .ok (rule whole) := by
  rw [Registry.compileRule_plain rfl rfl]
  cases whole <;> rfl

theorem answers_next (whole : Bool) :
    (rule whole).Answers (kind whole) (.num .nextTwoPow53) none := by
  intro run record path
  have hpasses : Limits.failure? whole (some least) (some .twoPow53) .nextTwoPow53 = none := by
    cases whole <;> decide +kernel
  rw [rule, Run.rule, if_neg (by simp [Json.isNull]), RuleOf.checks_ofChecks_singleton,
    run.checks_leaf (Leaf.verdict_ofLimits whole _ _ _ _), hpasses]

end Quota

open scoped Regex

theorem Registry.compileRule_limits_next :
    Registry.compileRule {} "n" (.descriptor (Quota.descriptor false)) = .ok (Quota.rule false) ∧
      Registry.compileRule {} "n" (.descriptor (Quota.descriptor true)) = .ok (Quota.rule true) ∧
      (Quota.rule false).Answers "number" (.num .nextTwoPow53) none ∧
      (Quota.rule true).Answers "int" (.num .nextTwoPow53) none ∧
      ¬Number.nextTwoPow53.value ≤ Number.twoPow53.value :=
  ⟨Quota.compileRule false, Quota.compileRule true, Quota.answers_next false,
    Quota.answers_next true, not_le_of_gt Number.twoPow53_lt_next⟩

open scoped Regex

theorem Registry.compileRule_limits_quota :
    ∃ rule, Registry.compileRule {} "n" (.descriptor (Quota.descriptor true)) = .ok rule ∧
      rule.Answers "int" (.num (.int (-1) (by decide)))
        (some (.invalid "should bigger than %s" ["0"])) := by
  have hentry : Registry.resolve {} (Quota.descriptor true).kind =
      some (.builtin (.ofWhole true)) := rfl
  have hmin : Json.present? "min" (Quota.descriptor true).options =
      (some Quota.least).map .num := rfl
  have hmax : Json.present? "max" (Quota.descriptor true).options =
      (some Number.twoPow53).map .num := rfl
  obtain ⟨rule, hrule, hjudged⟩ := compileRule_limits hentry (fun h => nomatch h) hmin hmax "n"
  obtain ⟨failure, hanswers, hfailure⟩ := hjudged (.int (-1) (by decide))
  have hbelow : failure = some (.below Quota.least) := by
    refine hfailure.below (fun _ => ⟨_, Number.value_int _ _⟩) ?_ Quota.least rfl ?_ ?_
    · rintro hi ⟨⟩
      left
      rw [Number.value_le_iff]
      decide
    · rw [Number.value_lt_iff]
      decide
    · rw [Number.Merged]
      decide +kernel
  have htext : Failure.below Quota.least = .invalid "should bigger than %s" ["0"] := by
    decide +kernel
  rw [← htext, ← hbelow]
  exact ⟨rule, hrule, hanswers⟩

end Rulebook
