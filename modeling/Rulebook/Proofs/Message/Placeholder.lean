import Mathlib.Data.List.Basic
import Rulebook.Message.Placeholder

namespace Rulebook.Placeholder

-- A text without an open brace, and after it a name in braces.
structure Slot where
  text : List Char
  name : List Char
  text_plain : '{' ∉ text
  name_closed : '}' ∉ name

-- A template taken apart at its names. After the last one comes a text without an open brace,
-- and there may be a brace after it that is never closed.
structure Layout where
  slots : List Slot
  rest : List Char
  loose : Option (List Char)
  rest_plain : '{' ∉ rest
  loose_open : ∀ tail ∈ loose, '}' ∉ tail

def braced (name : List Char) : List Char :=
  '{' :: name ++ ['}']

theorem braced_append (name cs : List Char) :
    braced name ++ cs = '{' :: (name ++ '}' :: cs) := by
  rw [braced, List.cons_append, List.cons_append, List.append_assoc, List.singleton_append]

-- What stands in the place of a name: its text, or the name as it is written.
def shown (lookup : String → Option String) (name : List Char) : List Char :=
  match lookup (String.ofList name) with
  | some text => text.toList
  | none => braced name

namespace Layout

def ending (layout : Layout) : List Char :=
  layout.rest ++ (layout.loose.map ('{' :: ·)).getD []

def written (layout : Layout) : List Char :=
  layout.slots.flatMap (fun slot => slot.text ++ braced slot.name) ++ layout.ending

def filled (lookup : String → Option String) (layout : Layout) : List Char :=
  layout.slots.flatMap (fun slot => slot.text ++ shown lookup slot.name) ++ layout.ending

end Layout

variable {lookup : String → Option String}

theorem fillChars_append {text : List Char} (h : '{' ∉ text) (cs : List Char) :
    fillChars lookup none (text ++ cs) = text ++ fillChars lookup none cs := by
  induction text with
  | nil => rfl
  | cons c text ih =>
      simp only [List.mem_cons, not_or] at h
      rw [List.cons_append, fillChars, if_neg (Ne.symm h.1), ih h.2, List.cons_append]

-- What has been read since the brace stands before the rest of the name.
theorem fillChars_name {name : List Char} (h : '}' ∉ name) (read cs : List Char) :
    fillChars lookup (some read) (name ++ '}' :: cs) =
      shown lookup (read.reverse ++ name) ++ fillChars lookup none cs := by
  induction name generalizing read with
  | nil =>
      rw [List.nil_append, fillChars, if_pos rfl, List.append_nil]
      rfl
  | cons c name ih =>
      simp only [List.mem_cons, not_or] at h
      rw [List.cons_append, fillChars, if_neg (Ne.symm h.1), ih h.2, List.reverse_cons,
        List.append_assoc, List.singleton_append]

theorem fillChars_loose {tail : List Char} (h : '}' ∉ tail) (read : List Char) :
    fillChars lookup (some read) tail = '{' :: read.reverse ++ tail := by
  induction tail generalizing read with
  | nil => rw [fillChars, List.append_nil]
  | cons c tail ih =>
      simp only [List.mem_cons, not_or] at h
      rw [fillChars, if_neg (Ne.symm h.1), ih h.2, List.reverse_cons, List.cons_append,
        List.append_assoc, List.singleton_append, List.cons_append]

theorem Layout.fillChars_ending (layout : Layout) :
    fillChars lookup none layout.ending = layout.ending := by
  rw [ending, fillChars_append layout.rest_plain]
  cases hloose : layout.loose with
  | none => rfl
  | some tail =>
      rw [Option.map_some, Option.getD_some, fillChars, if_pos rfl,
        fillChars_loose (layout.loose_open tail hloose)]
      rfl

-- Every name is looked up once, and what is put in its place is not read again.
theorem Layout.fillChars_written (lookup : String → Option String) (layout : Layout) :
    fillChars lookup none layout.written = layout.filled lookup := by
  rw [written, filled]
  induction layout.slots with
  | nil => exact layout.fillChars_ending
  | cons slot slots ih =>
      rw [List.flatMap_cons, List.flatMap_cons, List.append_assoc, List.append_assoc,
        braced_append, fillChars_append slot.text_plain, fillChars, if_pos rfl,
        fillChars_name slot.name_closed, ih, List.append_assoc, List.append_assoc]
      rfl

-- Every text is a template that can be taken apart.
theorem exists_layout (cs : List Char) : ∃ layout : Layout, layout.written = cs := by
  induction hlength : cs.length using Nat.strongRecOn generalizing cs with
  | _ length ih =>
      by_cases hopen : '{' ∈ cs
      · obtain ⟨text, after, rfl, htext⟩ := List.eq_append_cons_of_mem hopen
        by_cases hclose : '}' ∈ after
        · obtain ⟨name, tail, rfl, hname⟩ := List.eq_append_cons_of_mem hclose
          have hlt : tail.length < length := by
            simp only [List.length_append, List.length_cons] at hlength
            omega
          obtain ⟨layout, rfl⟩ := ih _ hlt tail rfl
          refine ⟨{ layout with slots := ⟨text, name, htext, hname⟩ :: layout.slots }, ?_⟩
          simp [Layout.written, Layout.ending, braced]
        · refine ⟨⟨[], text, some after, htext, ?_⟩, rfl⟩
          rintro tail ⟨⟩
          exact hclose
      · exact ⟨⟨[], cs, none, hopen, by simp⟩, List.append_nil cs⟩

-- Without a text for any of its names a template stays as it is.
theorem Layout.filled_eq_written {layout : Layout}
    (h : ∀ slot ∈ layout.slots, lookup (String.ofList slot.name) = none) :
    layout.filled lookup = layout.written := by
  rw [filled, written]
  congr 1
  refine List.flatMap_congr fun slot hslot => ?_
  rw [shown, h slot hslot]

theorem Layout.braced_infix {layout : Layout} {slot : Slot} (h : slot ∈ layout.slots) :
    braced slot.name <:+: layout.written := by
  obtain ⟨before, after, hslots⟩ := List.append_of_mem h
  refine ⟨before.flatMap (fun slot => slot.text ++ braced slot.name) ++ slot.text,
    after.flatMap (fun slot => slot.text ++ braced slot.name) ++ layout.ending, ?_⟩
  simp [written, hslots]

-- A template is filled with a text for each name that has one, in one pass: the texts between the
-- names, the names without a text and what comes after an open brace stay as they are, and what
-- is put in is not read again. All templates are of this form, so none of them loses anything
-- when there is nothing to put in.
theorem fill_names :
    (∀ template : String, fill (fun _ => none) template = template) ∧
    (∀ (layout : Layout) (lookup : String → Option String),
      fill lookup (String.ofList layout.written) = String.ofList (layout.filled lookup)) ∧
    ∀ template : String, ∃ layout : Layout, String.ofList layout.written = template := by
  have hwritten (layout : Layout) (lookup : String → Option String) :
      fill lookup (String.ofList layout.written) = String.ofList (layout.filled lookup) := by
    rw [fill, String.toList_ofList, layout.fillChars_written]
  have hlayout (template : String) :
      ∃ layout : Layout, String.ofList layout.written = template := by
    obtain ⟨layout, hchars⟩ := exists_layout template.toList
    exact ⟨layout, by rw [hchars, String.ofList_toList]⟩
  refine ⟨fun template => ?_, hwritten, hlayout⟩
  obtain ⟨layout, rfl⟩ := hlayout template
  rw [hwritten, Layout.filled_eq_written fun _ _ => rfl]

example :
    fill (fun name => if name = "a" then some "{b}" else none) "{a} or {b}" = "{b} or {b}" := by
  decide +kernel

end Rulebook.Placeholder
