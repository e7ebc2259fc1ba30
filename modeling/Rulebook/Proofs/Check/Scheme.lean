import Mathlib.Data.Bool.AllAny
import Rulebook.Proofs.Check.Host
import Rulebook.Proofs.Check.Text
import Rulebook.Proofs.Regex.Language
import Rulebook.Proofs.Validator.Report
import Rulebook.Regex.Engine

namespace Rulebook

open Outcome

namespace Url

open Regex

-- One of the schemes, in small letters or capitals of ASCII.
def IsScheme (name : List Char) : Prop :=
  name.map Char.toLower ∈ ["http".toList, "https".toList, "ftp".toList]

instance (name : List Char) : Decidable (IsScheme name) :=
  inferInstanceAs (Decidable (_ ∈ _))

-- The long s is a small s to an expression that disregards case.
def IsLongScheme (name : List Char) : Prop :=
  ∃ front, name = front ++ ['\u017f'] ∧ front.map Char.toLower = "http".toList

-- A user ends with an at sign.
def IsUser (user : List Char) : Prop :=
  user = [] ∨ ∃ name, user = name ++ ['@']

-- A text in its parts. The scheme ends before the first "://".
structure Splits (text scheme user host port path : List Char) : Prop where
  eq : text = scheme ++ "://".toList ++ (user ++ (host ++ (port ++ path)))
  scheme : ':' ∉ scheme
  user : IsUser user
  host : IsPlainHost host
  port : IsPort port
  path : IsPath path

section Letters

variable {c d : Char} {ds text name : List Char}

theorem toNat_lt_of_isLower (h : c.toLower.isLower = true) : c.toNat < 128 := by
  by_cases hupper : c.val ≥ 'A'.val ∧ c.val ≤ 'Z'.val
  · have hhigh : c.toNat ≤ 'Z'.toNat := hupper.2
    exact Nat.lt_of_le_of_lt hhigh (by decide)
  · have hsame : c.toLower = c := dif_neg hupper
    rw [hsame] at h
    have hhigh : c.toNat ≤ 'z'.toNat := of_decide_eq_true (Bool.and_eq_true_iff.mp h).2
    exact Nat.lt_of_le_of_lt hhigh (by decide)

theorem IsScheme.isLower (h : IsScheme name) : ∀ c ∈ name, c.toLower.isLower = true := by
  have hnames : ["http".toList, "https".toList, "ftp".toList].all (·.all Char.isLower) = true := by
    decide
  intro c hc
  exact List.all_eq_true.mp (List.all_eq_true.mp hnames _ h) _ (List.mem_map_of_mem hc)

theorem IsScheme.ascii (h : IsScheme name) : ∀ c ∈ name, c.toNat < 128 :=
  fun c hc => toNat_lt_of_isLower (h.isLower c hc)

theorem IsScheme.isBlank (h : IsScheme name) : ∀ c ∈ name, Text.isBlank c = false := by
  have hplain : ∀ n < 128, (Char.ofNat n).toLower.isLower = true →
      Text.isBlank (Char.ofNat n) = false := by decide +kernel
  intro c hc
  have hblank := hplain c.toNat (h.ascii c hc)
  rw [Char.ofNat_toNat] at hblank
  exact hblank (h.isLower c hc)

theorem IsLongScheme.isBlank (h : IsLongScheme name) : ∀ c ∈ name, Text.isBlank c = false := by
  obtain ⟨front, rfl, hfront⟩ := h
  have hscheme : IsScheme front := List.mem_of_mem_head? (by rw [hfront]; rfl)
  exact List.forall_mem_append.mpr
    ⟨hscheme.isBlank, List.forall_mem_singleton.mpr (by decide +kernel)⟩

-- The variants of these letters are their capitals.
theorem toLower_of_mem_fold (hd : d ∈ ['h', 't', 'p', 'f'])
    (h : (CharClass.fold (.single d)).mem c = true) : c.toLower = d := by
  have hletter : ∀ d ∈ ['h', 't', 'p', 'f'],
      0 < d.toNat ∧ Text.caseVariants d.toNat = [d.toNat - 32] ∧ d.toLower = d ∧
        (Char.ofNat (d.toNat - 32)).toLower = d :=
    List.all_iff_forall_prop.mp (by decide +kernel)
  obtain ⟨hpos, hvariants, hsmall, hcapital⟩ := hletter d hd
  rcases (CharClass.mem_fold_single hpos).mp h with rfl | hc
  · exact hsmall
  · rw [hvariants, List.mem_singleton] at hc
    rwa [← hc, Char.ofNat_toNat] at hcapital

theorem eq_of_mem_fold_s (h : (CharClass.fold (.single 's')).mem c = true) :
    c.toLower = 's' ∨ c = '\u017f' := by
  have hvariants : Text.caseVariants 's'.toNat = ['S'.toNat, '\u017f'.toNat] := by decide +kernel
  rcases (CharClass.mem_fold_single (by decide)).mp h with rfl | hc
  · exact .inl rfl
  · rw [hvariants, List.mem_pair, Char.toNat_inj, Char.toNat_inj] at hc
    refine hc.imp_left ?_
    rintro rfl
    rfl

theorem map_toLower_of_denotes (hds : ∀ d ∈ ds, d ∈ ['h', 't', 'p', 'f'])
    (h : (all (ds.map schemeLetter)).Denotes text) : text.map Char.toLower = ds := by
  induction ds generalizing text with
  | nil =>
      obtain rfl : text = [] := h
      rfl
  | cons d ds ih =>
      obtain ⟨hd, hds⟩ := List.forall_mem_cons.mp hds
      cases ds with
      | nil =>
          obtain ⟨c, hc, rfl⟩ := h
          rw [List.map_singleton, toLower_of_mem_fold hd hc]
      | cons e ds =>
          obtain ⟨_, rest, rfl, ⟨c, hc, rfl⟩, hrest⟩ := h
          rw [List.singleton_append, List.map_cons, toLower_of_mem_fold hd hc, ih hds hrest]

theorem scheme_cases (h : scheme.isMatch name = true) : IsScheme name ∨ IsLongScheme name := by
  rcases (isMatch_whole_iff_denotes (by rfl) (by rfl)).mp h with
    ⟨front, last, rfl, hfront, hlast⟩ | hname
  · have hfront := map_toLower_of_denotes (List.all_iff_forall_prop.mp (by decide)) hfront
    rcases denotes_optional.mp hlast with rfl | ⟨c, hc, rfl⟩
    · left
      rw [IsScheme, List.append_nil, hfront]
      decide
    · refine (eq_of_mem_fold_s hc).imp (fun hsmall => ?_) fun hlong =>
        ⟨front, by rw [hlong], hfront⟩
      rw [IsScheme, List.map_append, hfront, List.map_singleton, hsmall]
      decide
  · left
    rw [IsScheme, map_toLower_of_denotes (List.all_iff_forall_prop.mp (by decide)) hname]
    decide

end Letters

-- An accepted text is a scheme and a location. Its only blanks are in the host, above U+00A0.
theorem accepts_splits {s : String} (h : accepts s = true) :
    ∃ scheme user host port path, Splits s.toList scheme user host port path ∧
      (IsScheme scheme ∨ IsLongScheme scheme) ∧
      ∀ c ∈ s.toList, Text.isBlank c = true → c ∈ host ∧ 0xA1 ≤ c.toNat := by
  obtain ⟨name, location, hs, hcolon, hname, judged, hjudged, hverdict⟩ := exists_scheme h
  obtain ⟨host, port, path, rfl, ⟨hhost, hport, hpath, -⟩, hlow, hrest⟩ :=
    exists_spaced_parts hverdict
  obtain ⟨user, rfl, huser, hplain⟩ : ∃ user, location = user ++ (host ++ (port ++ path)) ∧
      IsUser user ∧ ∀ c ∈ user, Text.isBlank c = false := by
    rcases exists_user_of_mem_hostStarts hjudged with rfl | ⟨user, rfl, huser⟩
    · exact ⟨[], rfl, .inl rfl, by simp⟩
    · refine ⟨user ++ ['@'], by simp, .inr ⟨user, rfl⟩, ?_⟩
      exact List.forall_mem_append.mpr ⟨huser, List.forall_mem_singleton.mpr (by decide)⟩
  have hscheme := scheme_cases hname
  have hsplits : Splits s.toList name user host port path :=
    ⟨by simp [hs], hcolon, huser, hhost, hport, hpath⟩
  refine ⟨name, user, host, port, path, hsplits, hscheme, fun c hc hblank => ?_⟩
  have hnot {part : List Char} (hpart : ∀ c ∈ part, Text.isBlank c = false) : c ∉ part :=
    fun hmem => Bool.false_ne_true ((hpart c hmem).symm.trans hblank)
  have hbefore : c ∉ name ++ "://".toList := by
    have hslashes : ∀ c ∈ "://".toList, Text.isBlank c = false :=
      List.all_iff_forall_prop.mp (by decide)
    exact hnot (List.forall_mem_append.mpr
      ⟨hscheme.elim IsScheme.isBlank IsLongScheme.isBlank, hslashes⟩)
  rw [hsplits.eq] at hc
  have hlocation := (List.mem_append.mp hc).resolve_left hbefore
  have hlater := (List.mem_append.mp hlocation).resolve_left (hnot hplain)
  have hmem := (List.mem_append.mp hlater).resolve_right (hnot hrest)
  exact ⟨hmem, hlow c hmem hblank⟩

end Url

theorem Leaf.url_verdict {allowEmpty : Bool} {s : String} {context : Context} (hs : s ≠ "") :
    (Leaf.url allowEmpty).verdict (.str s) context = .pass ↔ Url.accepts s = true := by
  rw [verdict, textOf_str, if_neg hs]
  cases haccepts : Url.accepts s <;> simp [haccepts, Verdict.when]

namespace Registry

variable {registry : Registry} {args : Args} {parts : List (String × Rule)} {check : Check}

-- A text that passes the check of addresses is empty, or has the form of one: a scheme before
-- its first "://" that is http, https or ftp but for the case of its letters, then perhaps a user,
-- then a host, perhaps a port and perhaps a path. The long s counts as an s, and some of the blanks
-- beyond Latin-1 count as letters of a host.
theorem builds_url [Engine] (hentry : registry.resolve args.rule = some (.builtin .url))
    (hcheck : registry.Builds args parts check) (run : Run) (name path : String)
    (record : Json) {s : String} (hs : s ≠ "")
    (hpass : run.check name (.str s) record path check = none) :
    ∃ scheme user host port path, Url.Splits s.toList scheme user host port path ∧
      (Url.IsScheme scheme ∧ (∀ c ∈ scheme, c.toNat < 128) ∨ Url.IsLongScheme scheme) ∧
      ∀ c ∈ s.toList, Text.isBlank c = true → c ∈ host ∧ 0xA1 ≤ c.toNat := by
  obtain ⟨entry, hresolved, hbuild⟩ := hcheck
  obtain rfl := Option.some.inj (hentry.symm.trans hresolved)
  obtain ⟨allowEmpty, -, hbuild⟩ := bind_eq_ok_iff.mp hbuild
  obtain rfl := Except.ok.inj hbuild
  rw [Run.check_leaf_eq_none_iff, Leaf.url_verdict hs] at hpass
  obtain ⟨scheme, user, host, port, path, hsplits, hscheme, hblank⟩ := Url.accepts_splits hpass
  exact ⟨scheme, user, host, port, path, hsplits, hscheme.imp_left fun h => ⟨h, h.ascii⟩, hblank⟩

end Registry

-- A homepage that may not be left empty.
namespace Homepage

def args : Args :=
  { rule := "url", field := "homepage", options := [] }

def check : Check :=
  .leaf (.url false)

theorem builds [Engine] : Registry.Builds {} args [] check :=
  ⟨.builtin .url, rfl, rfl⟩

def run : Run :=
  ({} : Validator).run .null []

end Homepage

open scoped Regex

theorem Registry.builds_url_homepage :
    (Registry.resolve {} Homepage.args.rule = some (.builtin .url) ∧
      Registry.Builds {} Homepage.args [] Homepage.check ∧
      "HTTPS://me@example.com:8080/a" ≠ "" ∧
      Homepage.run.check "url" (.str "HTTPS://me@example.com:8080/a") .null "homepage"
        Homepage.check = none) ∧
      ∃ scheme user host port path,
        Url.Splits "HTTPS://me@example.com:8080/a".toList scheme user host port path ∧
        Url.IsScheme scheme ∧
        ∀ c ∈ "HTTPS://me@example.com:8080/a".toList, Text.isBlank c = false := by
  have hentry : Registry.resolve {} Homepage.args.rule = some (.builtin .url) := rfl
  have hne : "HTTPS://me@example.com:8080/a" ≠ "" := by decide
  have hpass : Homepage.run.check "url" (.str "HTTPS://me@example.com:8080/a") .null "homepage"
      Homepage.check = none := by
    rw [Homepage.check, Run.check_leaf_eq_none_iff, Leaf.url_verdict hne]
    decide +kernel
  have hascii : ∀ c ∈ "HTTPS://me@example.com:8080/a".toList, c.toNat < 128 :=
    List.all_iff_forall_prop.mp (by decide +kernel)
  obtain ⟨scheme, user, host, port, path, hsplits, hscheme, hblank⟩ :=
    builds_url hentry Homepage.builds Homepage.run "url" "homepage" .null hne hpass
  refine ⟨⟨hentry, Homepage.builds, hne, hpass⟩, scheme, user, host, port, path, hsplits, ?_, ?_⟩
  · refine hscheme.elim And.left fun hlong => ?_
    obtain ⟨front, rfl, -⟩ := hlong
    have hlast : '\u017f' ∈ "HTTPS://me@example.com:8080/a".toList := by
      rw [hsplits.eq]
      simp
    exact absurd (hascii _ hlast) (by decide)
  · intro c hc
    by_contra hnot
    have hlow := hascii c hc
    have hhigh := (hblank c hc (by simpa using hnot)).2
    omega

open scoped Regex

-- A long s passes for an s, and a blank of ideographic width for a letter.
theorem Registry.builds_url_variants :
    (Registry.resolve {} Homepage.args.rule = some (.builtin .url) ∧
      Registry.Builds {} Homepage.args [] Homepage.check) ∧
      (Homepage.run.check "url" (.str "http\u017f://example.com") .null "homepage"
          Homepage.check = none ∧
        "http\u017f://example.com".toList =
          "http\u017f".toList ++ "://".toList ++ "example.com".toList ∧
        ':' ∉ "http\u017f".toList ∧ ¬Url.IsScheme "http\u017f".toList) ∧
      Homepage.run.check "url" (.str "http://a\u3000b.example") .null "homepage"
          Homepage.check = none ∧
        '\u3000' ∈ "http://a\u3000b.example".toList ∧ Text.isBlank '\u3000' = true := by
  have haccepted {s : String} (hs : s ≠ "") (haccepts : Url.accepts s = true) :
      Homepage.run.check "url" (.str s) .null "homepage" Homepage.check = none := by
    rwa [Homepage.check, Run.check_leaf_eq_none_iff, Leaf.url_verdict hs]
  refine ⟨⟨rfl, Homepage.builds⟩, ⟨?_, rfl, by decide, by decide⟩, ?_, by decide, by decide⟩
  · exact haccepted (by decide) (by decide +kernel)
  · exact haccepted (by decide) (by decide +kernel)

end Rulebook
