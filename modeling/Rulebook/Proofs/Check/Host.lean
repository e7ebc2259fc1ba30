import Rulebook.Check.Url
import Rulebook.Proofs.Regex.Spans
import Rulebook.Proofs.Text.Cut
import Rulebook.Proofs.Text.Digits

namespace Rulebook.Url

open Regex

-- The text after the first "://".
def afterScheme? : List Char → Option (List Char)
  | [] => none
  | ':' :: '/' :: '/' :: rest => some rest
  | _ :: cs => afterScheme? cs

-- The authority ends before the path, the query or the fragment.
def inAuthority (c : Char) : Bool :=
  c != '/' && c != '?' && c != '#'

def authority (location : List Char) : List Char :=
  location.takeWhile inAuthority

def beyond (location : List Char) : List Char :=
  location.dropWhile inAuthority

def withoutUser (authority : List Char) : List Char :=
  match Text.cutLast '@' authority with
  | some (_, rest) => rest
  | none => authority

def withoutPort (authority : List Char) : List Char :=
  match Text.cutLast ':' authority with
  | some (host, digits) => if digits.all Char.isDigit then host else authority
  | none => authority

def hostOf (location : List Char) : List Char :=
  withoutPort (withoutUser (authority location))

-- A decimal number below 256. Leading zeros do not count.
def IsOctet (part : List Char) (n : Nat) : Prop :=
  Text.isDigitRun part = true ∧ Text.natOfDigits part = n ∧ n < 256

instance (part : List Char) (n : Nat) : Decidable (IsOctet part n) :=
  inferInstanceAs (Decidable (_ ∧ _ ∧ _))

def IsQuad (host : List Char) (a b c d : Nat) : Prop :=
  ∃ p q r s, host = p ++ '.' :: (q ++ '.' :: (r ++ '.' :: s)) ∧
    IsOctet p a ∧ IsOctet q b ∧ IsOctet r c ∧ IsOctet s d

-- The networks of private, loopback and link-local addresses, and the network zero, by the
-- first two octets.
def IsReservedNet (a b : Nat) : Prop :=
  a = 0 ∨ a = 10 ∨ a = 127 ∨ (a = 172 ∧ 16 ≤ b ∧ b ≤ 31) ∨ (a = 192 ∧ b = 168) ∨
    (a = 169 ∧ b = 254)

def IsReservedHost (host : List Char) : Prop :=
  ∃ a b c d, IsQuad host a b c d ∧ IsReservedNet a b

section Scheme

theorem afterScheme?_append {name : List Char} (h : ':' ∉ name) (rest : List Char) :
    afterScheme? (name ++ ':' :: '/' :: '/' :: rest) = some rest := by
  induction name with
  | nil => rfl
  | cons c name ih =>
      simp only [List.mem_cons, not_or] at h
      rw [List.cons_append, afterScheme?]
      · exact ih h.2
      · rintro tail rfl
        exact absurd rfl h.1

-- An accepted text has a scheme before its first "://" and a location after it, and a part of
-- that location decides.
theorem exists_scheme {s : String} (h : accepts s = true) :
    ∃ name location, s.toList = name ++ ':' :: '/' :: '/' :: location ∧ ':' ∉ name ∧
      scheme.isMatch name = true ∧
      ∃ judged ∈ hostStarts location, verdict? judged = some true := by
  unfold accepts at h
  split at h
  · rename_i name rest hcut
    obtain ⟨hs, hname⟩ := Text.eq_of_cut_eq_some hcut
    obtain ⟨hscheme, hverdict⟩ := Bool.and_eq_true_iff.mp h
    have hfound : (hostStarts rest).findSome? verdict? = some true := by
      cases hfirst : (hostStarts rest).findSome? verdict? <;> simp_all
    exact ⟨name, rest, hs, hname, hscheme, List.exists_of_findSome?_eq_some hfound⟩
  · cases h

theorem exists_location {s : String} (h : accepts s = true) :
    ∃ location, afterScheme? s.toList = some location ∧
      ∃ judged ∈ hostStarts location, verdict? judged = some true := by
  obtain ⟨name, location, hs, hname, -, hjudged⟩ := exists_scheme h
  exact ⟨location, by rw [hs, afterScheme?_append hname], hjudged⟩

-- A user has no blank characters.
theorem mem_afterAts {found : List (List Char)} {begun : Bool} {cs judged : List Char}
    (h : judged ∈ hostStarts.afterAts found begun cs) :
    judged ∈ found ∨ ∃ user, cs = user ++ '@' :: judged ∧ ∀ c ∈ user, Text.isBlank c = false := by
  induction cs generalizing found begun with
  | nil => exact .inl h
  | cons c cs ih =>
      rw [hostStarts.afterAts] at h
      split at h
      · exact .inl h
      · rename_i hblank
        rcases ih h with hmem | ⟨user, rfl, huser⟩
        · split at hmem
          · rename_i hat
            rw [Bool.and_eq_true, beq_iff_eq] at hat
            obtain ⟨-, rfl⟩ := hat
            rcases List.mem_cons.mp hmem with rfl | hmem
            · exact .inr ⟨[], rfl, by simp⟩
            · exact .inl hmem
          · exact .inl hmem
        · exact .inr ⟨c :: user, rfl,
            List.forall_mem_cons.mpr ⟨Bool.eq_false_iff.mpr hblank, huser⟩⟩

theorem exists_user_of_mem_hostStarts {location judged : List Char}
    (h : judged ∈ hostStarts location) :
    location = judged ∨
      ∃ user, location = user ++ '@' :: judged ∧ ∀ c ∈ user, Text.isBlank c = false := by
  rcases List.mem_append.mp h with hmem | hmem
  · exact (mem_afterAts hmem).elim (fun hnil => absurd hnil List.not_mem_nil) .inr
  · exact .inl (List.mem_singleton.mp hmem).symm

theorem eq_or_of_mem_hostStarts {location judged : List Char} (h : judged ∈ hostStarts location) :
    location = judged ∨ ∃ user, location = user ++ '@' :: judged :=
  (exists_user_of_mem_hostStarts h).imp_right fun ⟨user, hlocation, _⟩ => ⟨user, hlocation⟩

end Scheme

section Located

-- What a location has beside its host: a port and a path.
def IsPort (port : List Char) : Prop :=
  port = [] ∨ ∃ digits, port = ':' :: digits ∧ digits.all Char.isDigit = true

def IsPath (path : List Char) : Prop :=
  path = [] ∨ ∃ rest, path = '/' :: rest

theorem asciiDigit_mem (c : Char) : CharClass.asciiDigit.mem c = c.isDigit :=
  rfl

theorem isPort_of_spans {before after : Option Char} {text : List Char}
    (h : port.Spans before after text) : IsPort text := by
  rcases spans_optional.mp h with rfl | ⟨x, digits, rfl, hcolon, hdigits⟩
  · exact .inl rfl
  · obtain rfl := spans_char.mp hcolon
    refine .inr ⟨digits, rfl, List.all_eq_true.mpr fun c hc => ?_⟩
    rw [← asciiDigit_mem]
    exact hdigits.uses c hc

theorem isPath_of_spans {before after : Option Char} {text : List Char}
    (h : path.Spans before after text) : IsPath text := by
  rcases spans_optional.mp h with rfl | ⟨x, rest, rfl, hslash, -⟩
  · exact .inl rfl
  · obtain rfl := spans_char.mp hslash
    exact .inr ⟨rest, rfl⟩

theorem isBlank_of_spans_port {before after : Option Char} {text : List Char}
    (h : port.Spans before after text) : ∀ c ∈ text, Text.isBlank c = false := by
  rcases isPort_of_spans h with rfl | ⟨digits, rfl, hdigits⟩
  · exact fun c hc => absurd hc List.not_mem_nil
  · refine List.forall_mem_cons.mpr ⟨by decide, fun c hc => ?_⟩
    exact Text.isBlank_of_isDigit (List.all_eq_true.mp hdigits c hc)

theorem isBlank_of_spans_path {before after : Option Char} {text : List Char}
    (h : path.Spans before after text) : ∀ c ∈ text, Text.isBlank c = false := by
  rcases spans_optional.mp h with rfl | ⟨x, rest, rfl, hslash, hrest⟩
  · exact fun c hc => absurd hc List.not_mem_nil
  · obtain rfl := spans_char.mp hslash
    refine List.forall_mem_cons.mpr ⟨by decide, fun c hc => ?_⟩
    have huses : (!Text.isBlank c) = true := hrest.uses c hc
    simpa using huses

theorem exists_parts {e : Regex} (he : e.settled = true) {location : List Char}
    (h : (located e).isMatch location = true) :
    ∃ host port path, location = host ++ (port ++ path) ∧
      (∃ after, e.Spans none after host) ∧ IsPort port ∧ IsPath path ∧
      ∀ c ∈ port ++ path, Text.isBlank c = false := by
  have hsettled : (all [e, port, path]).settled = true := by
    simp only [all, settled, he, Bool.true_and]
    rfl
  obtain ⟨host, rest, rfl, hhost, port, path, rfl, hport, hpath⟩ :=
    (isMatch_whole_iff hsettled).mp h
  exact ⟨host, port, path, rfl, ⟨_, hhost⟩, isPort_of_spans hport, isPath_of_spans hpath,
    List.forall_mem_append.mpr ⟨isBlank_of_spans_port hport, isBlank_of_spans_path hpath⟩⟩

end Located

section Hosts

variable {host : List Char} {before after : Option Char} {a b c d : Nat}

-- Nothing in a host could end it, or the authority.
def IsPlainHost (host : List Char) : Prop :=
  ∀ c ∈ host, c ∉ [':', '/', '?', '#', '@']

theorem isPlainHost_of_spans {e : Regex}
    (hfree : [':', '/', '?', '#', '@'].any e.uses = false) (h : e.Spans before after host) :
    IsPlainHost host := by
  intro c hc hmem
  have huses : [':', '/', '?', '#', '@'].any e.uses = true :=
    List.any_eq_true.mpr ⟨c, hmem, h.uses c hc⟩
  rw [hfree] at huses
  cases huses

theorem quad_isPlainHost (h : quad.Spans before after host) : IsPlainHost host :=
  isPlainHost_of_spans (by decide +kernel) h

theorem host_isPlainHost (h : Url.host.Spans before after host) : IsPlainHost host :=
  isPlainHost_of_spans (by decide +kernel) h

-- The blanks that an expression lets through, if it uses none of the low ones.
theorem le_toNat_of_isBlank {e : Regex}
    (hlow : ∀ n < 0xA1, Text.isBlank (Char.ofNat n) = true → e.uses (Char.ofNat n) = false)
    (h : e.Spans before after host) :
    ∀ c ∈ host, Text.isBlank c = true → 0xA1 ≤ c.toNat := by
  intro c hc hblank
  by_contra hlt
  have hunused := hlow c.toNat (Nat.lt_of_not_le hlt)
  rw [Char.ofNat_toNat, h.uses c hc] at hunused
  cases hunused hblank

theorem digitValue_le_natOfDigits (first : Char) (rest : List Char) :
    Text.digitValue first ≤ Text.natOfDigits (first :: rest) := by
  have hfold (cs : List Char) (n : Nat) :
      n ≤ cs.foldl (fun n c => 10 * n + Text.digitValue c) n := by
    induction cs generalizing n with
    | nil => exact Nat.le_refl n
    | cons c cs ih =>
        have hnext := ih (10 * n + Text.digitValue c)
        rw [List.foldl_cons]
        omega
  have hrest := hfold rest (10 * 0 + Text.digitValue first)
  rw [Text.natOfDigits, List.foldl_cons]
  omega

-- The first part of an address of the quad form begins with another digit than zero.
theorem exists_first_of_spans_quad (h : quad.Spans before after host) :
    ∃ first rest, host = first :: rest ∧ 1 ≤ Text.digitValue first := by
  have hset {set : CharClass} {x y : List Char} {before after : Option Char}
      (hx : (chars set).Spans before after x)
      (hpositive : ∀ c, set.mem c = true → 1 ≤ Text.digitValue c) :
      ∃ first rest, x ++ y = first :: rest ∧ 1 ≤ Text.digitValue first := by
    obtain ⟨c, hc, rfl⟩ := hx
    exact ⟨c, y, rfl, hpositive c hc⟩
  obtain ⟨part, rest, rfl, hpart, -⟩ := h
  have hfirst : ∃ first tail, part = first :: tail ∧ 1 ≤ Text.digitValue first := by
    rcases hpart with ⟨x, y, rfl, hx, -⟩ | ⟨x, y, rfl, hx, -⟩ | ⟨x, y, rfl, hx, -⟩ |
      ⟨x, y, rfl, hx, -⟩
    · refine hset hx fun c hc => ?_
      simp only [CharClass.mem, Bool.and_eq_true, decide_eq_true_eq] at hc
      have hle : '1'.toNat ≤ c.toNat := hc.1
      simp only [Text.digitValue, Char.reduceToNat] at hle ⊢
      omega
    · obtain rfl := spans_char.mp hx
      exact ⟨'1', y, rfl, by decide⟩
    · obtain rfl := spans_char.mp hx
      exact ⟨'2', y, rfl, by decide⟩
    · obtain rfl := spans_char.mp hx
      exact ⟨'2', y, rfl, by decide⟩
  obtain ⟨first, tail, rfl, hpositive⟩ := hfirst
  exact ⟨first, tail ++ rest, rfl, hpositive⟩

-- The top level of a host name has letters only, and at least two of them.
theorem exists_last_of_spans_host (h : Url.host.Spans before after host) :
    ∃ last, host.getLast? = some last ∧ hostLetter.mem last = true := by
  obtain ⟨label, rest, rfl, -, labels, rest, rfl, -, dot, top, rfl, -, htop⟩ := h
  have hletters : ∀ c ∈ top, hostLetter.mem c = true := htop.uses
  obtain ⟨n, hn, -, hrounds⟩ := htop
  cases n with
  | zero => omega
  | succ n =>
      obtain ⟨x, y, rfl, ⟨c, -, rfl⟩, -⟩ := hrounds
      have hne : [c] ++ y ≠ [] := List.cons_ne_nil c y
      refine ⟨([c] ++ y).getLast hne, ?_, hletters _ (List.getLast_mem hne)⟩
      simp only [List.getLast?_append, List.getLast?_eq_getLast_of_ne_nil hne, Option.some_or]

theorem IsQuad.exists_last (h : IsQuad host a b c d) :
    ∃ last, host.getLast? = some last ∧ last.isDigit = true := by
  obtain ⟨p, q, r, s, rfl, -, -, -, hs, -⟩ := h
  obtain ⟨hne, hdigits⟩ := Text.isDigitRun_iff.mp hs
  refine ⟨s.getLast hne, ?_, hdigits _ (List.getLast_mem hne)⟩
  simp [List.getLast?_append, List.getLast?_cons, List.getLast?_eq_getLast_of_ne_nil hne]

theorem hostLetter_mem_of_isDigit {c : Char} (hc : c.isDigit = true) :
    hostLetter.mem c = false := by
  have hdigits : ∀ n < 10, hostLetter.mem (Char.ofNat ('0'.toNat + n)) = false := by decide
  have hlow : '0'.toNat ≤ c.toNat := by
    simp only [Char.isDigit, Bool.and_eq_true, decide_eq_true_eq] at hc
    exact hc.1
  have hhigh : c.toNat ≤ '9'.toNat := by
    simp only [Char.isDigit, Bool.and_eq_true, decide_eq_true_eq] at hc
    exact hc.2
  have hn := hdigits (c.toNat - '0'.toNat) (by simp only [Char.reduceToNat] at *; omega)
  rwa [Nat.add_sub_cancel' hlow, Char.ofNat_toNat] at hn

theorem not_isQuad_of_spans_host (h : Url.host.Spans before after host) : ¬IsQuad host a b c d := by
  intro hquad
  obtain ⟨last, hlast, hletter⟩ := exists_last_of_spans_host h
  obtain ⟨digit, hdigit, hisDigit⟩ := hquad.exists_last
  obtain rfl : last = digit := Option.some.inj (hlast.symm.trans hdigit)
  rw [hostLetter_mem_of_isDigit hisDigit] at hletter
  cases hletter

theorem eq_of_octet?_eq_some {part : List Char} {n : Nat} (h : octet? part = some n) :
    n = Text.natOfDigits part := by
  unfold octet? at h
  split at h
  · exact (Option.some.inj h).symm
  · cases h

-- The octets that decide are those of the address.
theorem IsQuad.octets_eq (h : IsQuad host a b c d) {octets : List Nat}
    (hoctets : octets? host = some octets) : octets = [a, b, c, d] := by
  obtain ⟨p, q, r, s, rfl, ⟨hp, rfl, -⟩, ⟨hq, rfl, -⟩, ⟨hr, rfl, -⟩, ⟨hs, rfl, -⟩⟩ := h
  have hdot {part : List Char} (hpart : Text.isDigitRun part = true) : '.' ∉ part :=
    Text.notMem_of_isDigitRun hpart (by decide)
  rw [octets?, Text.pieces_append_cons (hdot hp), Text.pieces_append_cons (hdot hq),
    Text.pieces_append_cons (hdot hr), Text.pieces_of_notMem (hdot hs)] at hoctets
  simp only [List.mapM_cons, List.mapM_nil, Option.bind_eq_bind, Option.bind_eq_some_iff,
    Option.pure_def, Option.some.injEq] at hoctets
  obtain ⟨w, hw, _, ⟨x, hx, _, ⟨y, hy, _, ⟨z, hz, _, rfl, rfl⟩, rfl⟩, rfl⟩, rfl⟩ := hoctets
  rw [eq_of_octet?_eq_some hw, eq_of_octet?_eq_some hx, eq_of_octet?_eq_some hy,
    eq_of_octet?_eq_some hz]

theorem not_isReservedHost_of_spans_quad (h : quad.Spans before after host)
    (hoctets : (octets? host).any (fun octets => !isReserved octets) = true) :
    ¬IsReservedHost host := by
  rintro ⟨a, b, c, d, hquad, hnet⟩
  obtain ⟨octets, hsome, hpublic⟩ :
      ∃ octets, octets? host = some octets ∧ (!isReserved octets) = true := by
    cases hread : octets? host with
    | none => simp [hread] at hoctets
    | some octets => exact ⟨octets, rfl, by simpa [hread] using hoctets⟩
  obtain rfl := hquad.octets_eq hsome
  obtain ⟨first, rest, hfirst, hpositive⟩ := exists_first_of_spans_quad h
  obtain ⟨p, q, r, s, rfl, ⟨hp, rfl, -⟩, -⟩ := hquad
  have hzero : Text.natOfDigits p ≠ 0 := by
    cases p with
    | nil => cases hp
    | cons digit p =>
        obtain ⟨rfl, -⟩ := List.cons.inj hfirst
        have hle := digitValue_le_natOfDigits digit p
        omega
  simp only [isReserved, Bool.not_eq_true', Bool.or_eq_false_iff, Bool.and_eq_false_iff,
    beq_eq_false_iff_ne, decide_eq_false_iff_not] at hpublic
  unfold IsReservedNet at hnet
  omega

end Hosts

section Judged

variable {location judged host port path : List Char}

theorem IsPort.inAuthority (h : IsPort port) : ∀ c ∈ port, Url.inAuthority c = true ∧ c ≠ '@' := by
  rcases h with rfl | ⟨digits, rfl, hdigits⟩
  · exact fun c hc => absurd hc List.not_mem_nil
  · refine List.forall_mem_cons.mpr ⟨by decide, fun c hc => ?_⟩
    have hdigit := List.all_eq_true.mp hdigits c hc
    simp only [Url.inAuthority, Bool.and_eq_true, bne_iff_ne, ne_eq]
    refine ⟨⟨⟨?_, ?_⟩, ?_⟩, ?_⟩ <;> rintro rfl <;> cases hdigit

theorem address_append (hhost : IsPlainHost host) (hport : IsPort port) (hpath : IsPath path) :
    address (host ++ (port ++ path)) = host := by
  have hin : ∀ c ∈ host, (c != ':' && c != '/') = true := by
    intro c hc
    have hfree := hhost c hc
    simp only [List.mem_cons, not_or] at hfree
    simp [hfree]
  have hrest : (port ++ path).takeWhile (fun c => c != ':' && c != '/') = [] := by
    rcases hport with rfl | ⟨digits, rfl, -⟩
    · rcases hpath with rfl | ⟨rest, rfl⟩ <;> rfl
    · rfl
  rw [address, List.takeWhile_append_of_pos hin, hrest, List.append_nil]

theorem authority_append (hhost : IsPlainHost host) (hport : IsPort port) (hpath : IsPath path) :
    authority (host ++ (port ++ path)) = host ++ port := by
  have hin : ∀ c ∈ host, inAuthority c = true := by
    intro c hc
    have hfree := hhost c hc
    simp only [List.mem_cons, not_or] at hfree
    simp [inAuthority, hfree]
  have hend : path.takeWhile inAuthority = [] := by
    rcases hpath with rfl | ⟨rest, rfl⟩ <;> rfl
  rw [authority, List.takeWhile_append_of_pos hin,
    List.takeWhile_append_of_pos fun c hc => (hport.inAuthority c hc).1, hend, List.append_nil]

theorem at_notMem (hhost : IsPlainHost host) (hport : IsPort port) : '@' ∉ host ++ port := by
  intro hmem
  rcases List.mem_append.mp hmem with hmem | hmem
  · exact hhost '@' hmem (by decide)
  · exact (hport.inAuthority '@' hmem).2 rfl

theorem withoutPort_append (hhost : IsPlainHost host) (hport : IsPort port) :
    withoutPort (host ++ port) = host := by
  have hcolon : ':' ∉ host := fun hmem => hhost ':' hmem (by decide)
  rcases hport with rfl | ⟨digits, rfl, hdigits⟩
  · rw [List.append_nil, withoutPort, Text.cutLast_eq_none_of_notMem hcolon]
  · have hnone : ':' ∉ digits := by
      intro hmem
      cases List.all_eq_true.mp hdigits ':' hmem
    simp only [withoutPort, Text.cutLast_append_cons hnone, hdigits, if_true]

-- What decides in favour of a text is a host that is not reserved, a port and a path. Only the
-- host may hold blanks, and none below U+00A1.
theorem exists_spaced_parts (h : verdict? judged = some true) :
    ∃ host port path, judged = host ++ (port ++ path) ∧
      (IsPlainHost host ∧ IsPort port ∧ IsPath path ∧ ¬IsReservedHost host) ∧
      (∀ c ∈ host, Text.isBlank c = true → 0xA1 ≤ c.toNat) ∧
      ∀ c ∈ port ++ path, Text.isBlank c = false := by
  unfold verdict? at h
  split at h
  · rename_i hquad
    obtain ⟨host, port, path, rfl, ⟨after, hspans⟩, hport, hpath, hrest⟩ :=
      exists_parts (by rfl) hquad
    have hhost := quad_isPlainHost hspans
    have hpublic := Option.some.inj h
    rw [address_append hhost hport hpath] at hpublic
    exact ⟨host, port, path, rfl,
      ⟨hhost, hport, hpath, not_isReservedHost_of_spans_quad hspans hpublic⟩,
      le_toNat_of_isBlank (by decide +kernel) hspans, hrest⟩
  · split at h
    · rename_i hname
      obtain ⟨host, port, path, rfl, ⟨after, hspans⟩, hport, hpath, hrest⟩ :=
        exists_parts (by rfl) hname
      refine ⟨host, port, path, rfl, ⟨host_isPlainHost hspans, hport, hpath, ?_⟩,
        le_toNat_of_isBlank (by decide +kernel) hspans, hrest⟩
      rintro ⟨a, b, c, d, hquad, -⟩
      exact not_isQuad_of_spans_host hspans hquad
    · cases h

theorem exists_judged_parts (h : verdict? judged = some true) :
    ∃ host port path, judged = host ++ (port ++ path) ∧ IsPlainHost host ∧ IsPort port ∧
      IsPath path ∧ ¬IsReservedHost host := by
  obtain ⟨host, port, path, hjudged, hparts, -⟩ := exists_spaced_parts h
  exact ⟨host, port, path, hjudged, hparts⟩

-- An at sign that ends the user stands in the authority, if none stands beyond it.
theorem forall_inAuthority {user : List Char} (h : '@' ∉ beyond (user ++ '@' :: judged)) :
    ∀ c ∈ user, inAuthority c = true := by
  by_contra hnot
  have hne : user.dropWhile inAuthority ≠ [] := by
    rw [ne_eq, List.dropWhile_eq_nil_iff]
    exact hnot
  rw [beyond, List.dropWhile_append, if_neg (by simpa using hne)] at h
  exact h (List.mem_append_right _ List.mem_cons_self)

end Judged

-- The host that decides is never reserved. It follows the slashes or an at sign, and it is the
-- host of the text unless an at sign stands beyond the authority.
theorem accepts_host {s : String} (h : accepts s = true) :
    ∃ location, afterScheme? s.toList = some location ∧
      (∃ judged, (location = judged ∨ ∃ user, location = user ++ '@' :: judged) ∧
        ¬IsReservedHost (hostOf judged)) ∧
      ('@' ∉ beyond location → ¬IsReservedHost (hostOf location)) := by
  obtain ⟨location, hlocation, judged, hmem, hverdict⟩ := exists_location h
  obtain ⟨host, port, path, rfl, hhost, hport, hpath, hpublic⟩ := exists_judged_parts hverdict
  have hat := at_notMem hhost hport
  have hjudged : hostOf (host ++ (port ++ path)) = host := by
    rw [hostOf, authority_append hhost hport hpath, withoutUser,
      Text.cutLast_eq_none_of_notMem hat]
    exact withoutPort_append hhost hport
  have hsplit := eq_or_of_mem_hostStarts hmem
  refine ⟨location, hlocation, ⟨_, hsplit, by rwa [hjudged]⟩, fun hbeyond => ?_⟩
  rcases hsplit with rfl | ⟨user, rfl⟩
  · rwa [hjudged]
  · have hauthority : authority (user ++ '@' :: (host ++ (port ++ path))) =
        user ++ '@' :: (host ++ port) := by
      rw [authority, List.takeWhile_append_of_pos (forall_inAuthority hbeyond),
        List.takeWhile_cons_of_pos rfl, ← authority, authority_append hhost hport hpath]
    rw [hostOf, hauthority, withoutUser, Text.cutLast_append_cons hat]
    rwa [withoutPort_append hhost hport]

theorem accepts_host_of_user :
    accepts "ftp://me@142.42.1.1:8080/a" = true ∧
      afterScheme? "ftp://me@142.42.1.1:8080/a".toList =
        some "me@142.42.1.1:8080/a".toList ∧
      '@' ∉ beyond "me@142.42.1.1:8080/a".toList ∧
      hostOf "me@142.42.1.1:8080/a".toList = "142.42.1.1".toList ∧
      ¬IsReservedHost (hostOf "me@142.42.1.1:8080/a".toList) := by
  have haccepts : accepts "ftp://me@142.42.1.1:8080/a" = true := by decide +kernel
  have hbeyond : '@' ∉ beyond "me@142.42.1.1:8080/a".toList := by decide +kernel
  obtain ⟨location, hlocation, -, hhost⟩ := accepts_host haccepts
  obtain rfl := Option.some.inj hlocation
  exact ⟨haccepts, rfl, hbeyond, by decide +kernel, hhost hbeyond⟩

-- With an at sign in the path, the path takes the place of the host.
theorem accepts_reserved_host :
    accepts "http://10.0.0.1/@example.com" = true ∧
      afterScheme? "http://10.0.0.1/@example.com".toList = some "10.0.0.1/@example.com".toList ∧
      hostOf "10.0.0.1/@example.com".toList = "10.0.0.1".toList ∧
      IsReservedHost "10.0.0.1".toList := by
  refine ⟨by decide +kernel, rfl, by decide +kernel, 10, 0, 0, 1, ?_, .inr (.inl rfl)⟩
  exact ⟨['1', '0'], ['0'], ['0'], ['1'], rfl, by decide, by decide, by decide, by decide⟩

end Rulebook.Url
