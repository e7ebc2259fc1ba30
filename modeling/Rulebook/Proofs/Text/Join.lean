import Rulebook.Proofs.Text.Trim

namespace Rulebook.Text

variable {sep c : Char} {item : List Char} {items : List (List Char)}

theorem joinWith_cons_cons (sep item next : List Char) (rest : List (List Char)) :
    joinWith sep (item :: next :: rest) = item ++ sep ++ joinWith sep (next :: rest) :=
  rfl

-- All items but the first one follow a separator.
theorem joinWith_cons (sep item : List Char) (rest : List (List Char)) :
    joinWith sep (item :: rest) = item ++ (rest.map (sep ++ ·)).flatten := by
  induction rest generalizing item with
  | nil => exact (List.append_nil item).symm
  | cons next rest ih =>
      rw [joinWith_cons_cons, ih, List.map_cons, List.flatten_cons, List.append_assoc,
        List.append_assoc]

-- All items but the last one are followed by a separator.
theorem joinWith_append_singleton (sep last : List Char) (items : List (List Char)) :
    joinWith sep (items ++ [last]) = (items.map (· ++ sep)).flatten ++ last := by
  induction items with
  | nil => rfl
  | cons item rest ih =>
      rw [List.map_cons, List.flatten_cons, List.append_assoc, ← ih, List.cons_append]
      cases rest <;> rfl

theorem mem_joinWith (h : c ∈ joinWith [sep] items) : c = sep ∨ ∃ item ∈ items, c ∈ item := by
  cases items with
  | nil => cases h
  | cons first rest =>
      rw [joinWith_cons, List.mem_append, List.mem_flatten] at h
      rcases h with hfirst | ⟨part, hpart, hc⟩
      · exact .inr ⟨first, List.mem_cons_self, hfirst⟩
      · obtain ⟨item, hitem, rfl⟩ := List.mem_map.mp hpart
        rcases List.mem_cons.mp hc with rfl | hc
        · exact .inl rfl
        · exact .inr ⟨item, List.mem_cons_of_mem _ hitem, hc⟩

-- No blanks are at the ends of items without blanks at their ends.
theorem trimChars_joinWith (hsep : isBlank sep = false)
    (h : ∀ item ∈ items, trimChars item = item) :
    trimChars (joinWith [sep] items) = joinWith [sep] items := by
  induction items with
  | nil => rfl
  | cons item rest ih =>
      obtain ⟨hitem, hrest⟩ := List.forall_mem_cons.mp h
      cases rest with
      | nil => exact hitem
      | cons next rest =>
          have hkept := ih hrest
          rw [joinWith_cons_cons, List.append_assoc, List.singleton_append,
            trimChars_append_cons hsep hitem, ← hkept, trimChars, trimEnd_idempotent]

-- Items without separators are the pieces of what they are joined to.
theorem pieces_joinWith (hne : items ≠ []) (h : ∀ item ∈ items, sep ∉ item) :
    pieces sep (joinWith [sep] items) = items := by
  induction items with
  | nil => exact absurd rfl hne
  | cons item rest ih =>
      obtain ⟨hitem, hrest⟩ := List.forall_mem_cons.mp h
      cases rest with
      | nil => exact pieces_of_notMem hitem
      | cons next rest =>
          rw [joinWith_cons_cons, List.append_assoc, List.singleton_append,
            pieces_append_cons hitem, ih (List.cons_ne_nil _ _) hrest]

end Rulebook.Text
