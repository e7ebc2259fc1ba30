import Mathlib.Logic.Basic
import Mathlib.Tactic.SplitIfs
import Rulebook.Json.Token

namespace Rulebook.Json.Token

-- The characters that may stand anywhere between two tokens.
def spaces : List Char :=
  [' ', '\t', '\n', '\r']

-- The tokens of one character.
def marks : List (Char × Token) :=
  [('[', .openArr), (']', .closeArr), ('{', .openObj), ('}', .closeObj), (',', .comma),
    (':', .colon)]

def IsWordChar (c : Char) : Prop :=
  c ∉ spaces ∧ c ≠ '"' ∧ c ∉ marks.map (·.1)

-- What may stand between two quotes: no quote without a backslash before it, and no backslash
-- without a character after it.
inductive Closed : List Char → Prop
  | nil : Closed []
  | char {c : Char} {body : List Char} (hquote : c ≠ '"') (hslash : c ≠ '\\')
      (hbody : Closed body) : Closed (c :: body)
  | escape (c : Char) {body : List Char} (hbody : Closed body) : Closed ('\\' :: c :: body)

-- The tokens of a text. A word goes on as far as it can.
inductive Lexes : List Char → List Token → Prop
  | nil : Lexes [] []
  | space {c : Char} {cs : List Char} {tokens : List Token} (hc : c ∈ spaces)
      (hrest : Lexes cs tokens) : Lexes (c :: cs) tokens
  | mark {c : Char} {token : Token} {cs : List Char} {tokens : List Token}
      (hc : (c, token) ∈ marks) (hrest : Lexes cs tokens) : Lexes (c :: cs) (token :: tokens)
  | quoted {body cs : List Char} {tokens : List Token} (hbody : Closed body)
      (hrest : Lexes cs tokens) : Lexes ('"' :: (body ++ '"' :: cs)) (.quoted body :: tokens)
  | word {w cs : List Char} {tokens : List Token} (hne : w ≠ []) (hw : ∀ c ∈ w, IsWordChar c)
      (hend : ∀ c ∈ cs.head?, ¬IsWordChar c) (hrest : Lexes cs tokens) :
      Lexes (w ++ cs) (.word w :: tokens)

variable {c : Char} {token : Token} {cs : List Char} {tokens rest : List Token} {state : Partial}

theorem isSpace_iff : isSpace c = true ↔ c ∈ spaces := by
  simp [isSpace, spaces, or_assoc]

theorem punctuation_eq_some_iff : punctuation c = some token ↔ (c, token) ∈ marks := by
  constructor
  · intro h
    unfold punctuation at h
    split at h <;> cases h <;> decide
  · intro h
    simp only [marks, List.mem_cons, Prod.mk.injEq, List.not_mem_nil, or_false] at h
    rcases h with ⟨rfl, rfl⟩ | ⟨rfl, rfl⟩ | ⟨rfl, rfl⟩ | ⟨rfl, rfl⟩ | ⟨rfl, rfl⟩ | ⟨rfl, rfl⟩ <;>
      rfl

theorem isSome_punctuation_iff : (punctuation c).isSome = true ↔ c ∈ marks.map (·.1) := by
  simp only [Option.isSome_iff_exists, punctuation_eq_some_iff, List.mem_map, Prod.exists,
    exists_and_right, exists_eq_right]

theorem endsWord_iff : endsWord c = true ↔ ¬IsWordChar c := by
  simp only [endsWord, Bool.or_eq_true, isSpace_iff, beq_iff_eq, isSome_punctuation_iff,
    IsWordChar, not_and_or, not_not, or_assoc]

theorem start_of_mem_spaces (hc : c ∈ spaces) : start c = (.gap, []) := by
  rw [start, if_pos (isSpace_iff.mpr hc)]

theorem start_of_mem_marks (hc : (c, token) ∈ marks) : start c = (.gap, [token]) := by
  simp only [marks, List.mem_cons, Prod.mk.injEq, List.not_mem_nil, or_false] at hc
  rcases hc with ⟨rfl, rfl⟩ | ⟨rfl, rfl⟩ | ⟨rfl, rfl⟩ | ⟨rfl, rfl⟩ | ⟨rfl, rfl⟩ | ⟨rfl, rfl⟩ <;> rfl

theorem start_of_isWordChar (hc : IsWordChar c) : start c = (.word [c], []) := by
  obtain ⟨hspace, hquote, hmark⟩ := hc
  have hnone : punctuation c = none := by
    rwa [← Option.not_isSome_iff_eq_none, isSome_punctuation_iff]
  rw [start, if_neg (mt isSpace_iff.mp hspace), if_neg (mt eq_of_beq hquote), hnone]

-- What a character is where no token is being read.
theorem start_cases (c : Char) :
    (c ∈ spaces ∧ start c = (.gap, [])) ∨ (c = '"' ∧ start c = (.quoted [], [])) ∨
      (∃ token, (c, token) ∈ marks ∧ start c = (.gap, [token])) ∨
      (IsWordChar c ∧ start c = (.word [c], [])) := by
  by_cases hspace : c ∈ spaces
  · exact .inl ⟨hspace, start_of_mem_spaces hspace⟩
  by_cases hquote : c = '"'
  · subst hquote
    exact .inr (.inl ⟨rfl, rfl⟩)
  by_cases hmark : c ∈ marks.map (·.1)
  · obtain ⟨⟨_, token⟩, hmem, rfl⟩ := List.mem_map.mp hmark
    exact .inr (.inr (.inl ⟨token, hmem, start_of_mem_marks hmem⟩))
  · have hword : IsWordChar c := ⟨hspace, hquote, hmark⟩
    exact .inr (.inr (.inr ⟨hword, start_of_isWordChar hword⟩))

theorem Closed.append {body more : List Char} (h : Closed body) (hmore : Closed more) :
    Closed (body ++ more) := by
  induction h with
  | nil => exact hmore
  | char hquote hslash _ ih => exact .char hquote hslash ih
  | escape c _ ih => exact .escape c ih

namespace Partial

-- The text of the token that is being read.
def text : Partial → List Char
  | gap => []
  | word read => read.reverse
  | quoted read | escape read => '"' :: read.reverse

-- What can have been read of a token.
inductive Valid : Partial → Prop
  | gap : Valid .gap
  | word {read : List Char} (hne : read ≠ []) (hread : ∀ c ∈ read, IsWordChar c) :
      Valid (.word read)
  | quoted {read : List Char} (hread : Closed read.reverse) : Valid (.quoted read)
  | escape {read : List Char} (hread : Closed read.reverse) : Valid (.escape ('\\' :: read))

end Partial

theorem start_valid (c : Char) : (start c).1.Valid := by
  rcases start_cases c with ⟨-, h⟩ | ⟨-, h⟩ | ⟨token, -, h⟩ | ⟨hword, h⟩ <;> rw [h]
  · exact .gap
  · exact .quoted .nil
  · exact .gap
  · exact .word (List.cons_ne_nil c []) (List.forall_mem_singleton.mpr hword)

theorem step_valid (h : state.Valid) (c : Char) : (step state c).1.Valid := by
  cases h with
  | gap => exact start_valid c
  | @word read hne hread =>
      rw [step]
      split_ifs with hend
      · exact start_valid c
      · refine .word (List.cons_ne_nil c read) (List.forall_mem_cons.mpr ⟨?_, hread⟩)
        rwa [endsWord_iff, not_not] at hend
  | @quoted read hread =>
      rw [step]
      split_ifs with hquote hslash
      · exact .gap
      · rw [eq_of_beq hslash]
        exact .escape hread
      · rw [beq_iff_eq] at hquote hslash
        have hbody := hread.append (.char hquote hslash .nil)
        exact .quoted (by rwa [List.reverse_cons])
  | @escape read hread =>
      have hbody := hread.append (.escape c .nil)
      refine .quoted ?_
      rwa [List.reverse_cons, List.reverse_cons, List.append_assoc]

theorem lexes_start (h : Lexes ((start c).1.text ++ cs) rest) :
    Lexes (c :: cs) ((start c).2 ++ rest) := by
  rcases start_cases c with ⟨hc, heq⟩ | ⟨rfl, -⟩ | ⟨token, hc, heq⟩ | ⟨-, heq⟩
  · rw [heq] at h ⊢
    exact .space hc h
  · exact h
  · rw [heq] at h ⊢
    exact .mark hc h
  · rw [heq] at h ⊢
    exact h

-- What a step completes stands before what is still to be read.
theorem lexes_step (hstate : state.Valid) (h : Lexes ((step state c).1.text ++ cs) rest) :
    Lexes (state.text ++ c :: cs) ((step state c).2 ++ rest) := by
  have hmove {read : List Char} (h : Lexes ((c :: read).reverse ++ cs) rest) :
      Lexes (read.reverse ++ c :: cs) rest := by
    rwa [List.reverse_cons, List.append_assoc, List.singleton_append] at h
  have hquoted {read : List Char} (h : Lexes ('"' :: (c :: read).reverse ++ cs) rest) :
      Lexes ('"' :: read.reverse ++ c :: cs) rest := by
    rwa [List.reverse_cons, List.cons_append, List.append_assoc, List.singleton_append] at h
  cases hstate with
  | gap => exact lexes_start h
  | @word read hne hread =>
      rw [step] at h ⊢
      split_ifs at h ⊢ with hend
      · refine .word (mt List.reverse_eq_nil_iff.mp hne)
          (fun d hd => hread d (List.mem_reverse.mp hd)) ?_ (lexes_start h)
        rintro d ⟨⟩
        exact endsWord_iff.mp hend
      · exact hmove h
  | @quoted read hread =>
      rw [step] at h ⊢
      split_ifs at h ⊢ with hquote hslash
      · rw [eq_of_beq hquote]
        exact .quoted hread h
      · exact hquoted h
      · exact hquoted h
  | escape hread => exact hquoted h

theorem lexes_of_scan (hstate : state.Valid) (h : scan state cs = some tokens) :
    Lexes (state.text ++ cs) tokens := by
  induction cs generalizing state tokens with
  | nil =>
      cases hstate with
      | gap =>
          cases h
          exact .nil
      | word hne hread =>
          cases h
          exact .word (mt List.reverse_eq_nil_iff.mp hne)
            (fun d hd => hread d (List.mem_reverse.mp hd)) nofun .nil
      | quoted => cases h
      | escape => cases h
  | cons c cs ih =>
      obtain ⟨rest, hrest, rfl⟩ := Option.map_eq_some_iff.mp h
      exact lexes_step hstate (ih (step_valid hstate c) hrest)

theorem scan_word {w : List Char} (hw : ∀ c ∈ w, IsWordChar c)
    (hend : ∀ c ∈ cs.head?, ¬IsWordChar c) (read : List Char) :
    scan (.word read) (w ++ cs) = (scan .gap cs).map (.word (read.reverse ++ w) :: ·) := by
  induction w generalizing read with
  | nil =>
      rw [List.append_nil, List.nil_append]
      cases cs with
      | nil => rfl
      | cons c cs =>
          have hstep : step (.word read) c = ((start c).1, .word read.reverse :: (start c).2) := by
            rw [step, if_pos (endsWord_iff.mpr (hend c rfl))]
          rw [scan, hstep, scan, Option.map_map]
          rfl
  | cons c w ih =>
      obtain ⟨hc, hrest⟩ := List.forall_mem_cons.mp hw
      have hstep : step (.word read) c = (.word (c :: read), []) := by
        rw [step, if_neg (mt endsWord_iff.mp (not_not.mpr hc))]
      rw [List.cons_append, scan, hstep, ih hrest, List.reverse_cons, List.append_assoc,
        List.singleton_append]
      simp only [List.nil_append, Option.map_id']

theorem scan_quoted {body : List Char} (hbody : Closed body) (cs read : List Char) :
    scan (.quoted read) (body ++ '"' :: cs) =
      (scan .gap cs).map (.quoted (read.reverse ++ body) :: ·) := by
  induction hbody generalizing read with
  | nil =>
      rw [List.append_nil]
      rfl
  | @char c body hquote hslash _ ih =>
      have hstep : step (.quoted read) c = (.quoted (c :: read), []) := by
        rw [step, if_neg (mt eq_of_beq hquote), if_neg (mt eq_of_beq hslash)]
      rw [List.cons_append, scan, hstep, ih, List.reverse_cons, List.append_assoc,
        List.singleton_append]
      simp only [List.nil_append, Option.map_id']
  | @escape c body _ ih =>
      have hslash : step (.quoted read) '\\' = (.escape ('\\' :: read), []) := rfl
      rw [List.cons_append, List.cons_append, scan, hslash, scan, step, ih, List.reverse_cons,
        List.reverse_cons, List.append_assoc, List.append_assoc]
      simp only [List.nil_append, List.singleton_append, Option.map_id']

theorem scan_of_lexes (h : Lexes cs tokens) : scan .gap cs = some tokens := by
  induction h with
  | nil => rfl
  | space hc _ ih =>
      rw [scan, step, start_of_mem_spaces hc, ih]
      rfl
  | mark hc _ ih =>
      rw [scan, step, start_of_mem_marks hc, ih]
      rfl
  | @quoted body cs tokens hbody _ ih =>
      have hstart : start '"' = (.quoted [], []) := rfl
      rw [scan, step, hstart, scan_quoted hbody, ih]
      rfl
  | @word w cs tokens hne hw hend _ ih =>
      obtain ⟨c, w, rfl⟩ := List.exists_cons_of_ne_nil hne
      obtain ⟨hc, hrest⟩ := List.forall_mem_cons.mp hw
      rw [List.cons_append, scan, step, start_of_isWordChar hc, scan_word hrest hend, ih]
      rfl

theorem scan_eq_some_iff : scan .gap cs = some tokens ↔ Lexes cs tokens :=
  ⟨lexes_of_scan .gap, scan_of_lexes⟩

end Rulebook.Json.Token
