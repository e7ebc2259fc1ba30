import Rulebook.Proofs.Message.Template
import Rulebook.Proofs.Text.Join

namespace Rulebook.Template

def mark : List Char := ['%', 's']

-- A text as it is written in a template.
def escape (text : List Char) : List Char :=
  text.flatMap fun c => if c = '%' then doubled else [c]

-- What stands in the place of a mark, by the number of marks before it: the argument of that
-- number, or the mark itself when there are not that many arguments.
def shown (args : List String) (index : Nat) : List Char :=
  match args[index]? with
  | some arg => arg.toList
  | none => mark

def surplus (args : List String) : List Char :=
  args.flatMap fun arg => ' ' :: arg.toList

-- The texts of a template around its marks. There is a mark before each text but the first.
structure Layout where
  first : List Char
  rest : List (List Char)

namespace Layout

def written (layout : Layout) : List Char :=
  Text.joinWith mark ((layout.first :: layout.rest).map escape)

def filled (args : List String) (layout : Layout) : List Char :=
  layout.first ++ (layout.rest.mapIdx fun index text => shown args index ++ text).flatten ++
    surplus (args.drop layout.rest.length)

def behind (text : List Char) (layout : Layout) : Layout :=
  { layout with first := text ++ layout.first }

-- Any text can be read as a template. A percent sign that neither begins a mark nor is doubled
-- stands for itself.
def read : List Char → Layout
  | '%' :: 's' :: cs => ⟨[], (read cs).first :: (read cs).rest⟩
  | '%' :: '%' :: cs => behind ['%'] (read cs)
  | c :: cs => behind [c] (read cs)
  | [] => ⟨[], []⟩

theorem behind_behind (before text : List Char) (layout : Layout) :
    (layout.behind text).behind before = layout.behind (before ++ text) := by
  rw [behind, behind, behind, List.append_assoc]

theorem filled_behind (args : List String) (text : List Char) (layout : Layout) :
    (layout.behind text).filled args = text ++ layout.filled args := by
  simp only [filled, behind, List.append_assoc]

-- The first mark takes the first argument, and those after it see only the others.
theorem filled_mark (args : List String) (first : List Char) (rest : List (List Char)) :
    filled args ⟨[], first :: rest⟩ = shown args 0 ++ filled args.tail ⟨first, rest⟩ := by
  have hshown (index : Nat) : shown args (index + 1) = shown args.tail index := by
    rw [shown, shown, List.getElem?_tail]
  have hsurplus : args.drop (rest.length + 1) = args.tail.drop rest.length := by
    rw [List.drop_tail]
  simp only [filled, List.mapIdx_cons, hshown, List.length_cons, hsurplus, List.flatten_cons,
    List.nil_append, List.append_assoc]

theorem written_cons (first next : List Char) (rest : List (List Char)) :
    written ⟨first, next :: rest⟩ = escape first ++ '%' :: 's' :: written ⟨next, rest⟩ := by
  rw [written, written, List.map_cons, List.map_cons, Text.joinWith_cons_cons, List.append_assoc]
  rfl

theorem read_cons_of_ne {c : Char} (h : c ≠ '%') (cs : List Char) :
    read (c :: cs) = (read cs).behind [c] := by
  rw [read]
  · exact fun _ hc _ => h hc
  · exact fun _ hc _ => h hc

-- What comes after the text does not matter: a last percent sign is doubled, and so it does not
-- begin a mark.
theorem read_escape_append (text cs : List Char) :
    read (escape text ++ cs) = (read cs).behind text := by
  induction text with
  | nil => rfl
  | cons c text ih =>
      rw [escape, List.flatMap_cons, List.append_assoc, ← escape]
      by_cases hc : c = '%'
      · rw [if_pos hc, hc, doubled, List.cons_append, List.singleton_append, read, ih,
          behind_behind, List.singleton_append]
      · rw [if_neg hc, List.singleton_append, read_cons_of_ne hc, ih, behind_behind,
          List.singleton_append]

-- A template is read as the texts that it is written from, whatever percent signs they begin or
-- end with.
theorem read_written (layout : Layout) : read layout.written = layout := by
  obtain ⟨first, rest⟩ := layout
  induction rest generalizing first with
  | nil =>
      rw [written, List.map_cons, List.map_nil, Text.joinWith, ← List.append_nil (escape first),
        read_escape_append, read, behind, List.append_nil]
  | cons next rest ih =>
      rw [written_cons, read_escape_append, read, ih, behind, List.append_nil]

end Layout

theorem fillChars_mark (cs : List Char) (args : List String) :
    fillChars ('%' :: 's' :: cs) args = shown args 0 ++ fillChars cs args.tail := by
  cases args <;> rfl

-- A template is filled as its texts and marks are, one argument for each mark. What an argument
-- puts in is not read again.
theorem fillChars_eq_filled (cs : List Char) (args : List String) :
    fillChars cs args = (Layout.read cs).filled args := by
  fun_induction Layout.read cs generalizing args with
  | case1 cs ih => rw [fillChars_mark, ih, Layout.filled_mark]
  | case2 cs ih => rw [fillChars, ih, Layout.filled_behind, List.singleton_append]
  | case3 c cs hmark hdouble ih =>
      rw [fillChars, ih, Layout.filled_behind, List.singleton_append]
      · exact hdouble
      · exact fun after _ _ _ hc hcs => hmark after hc hcs
      · exact fun after _ hc hcs => hmark after hc hcs
  | case4 => rfl

-- A template of texts with their percent signs doubled and marks between them is filled to the
-- texts as they are, with the arguments in turn between them. A mark without an argument stays,
-- and the arguments without a mark follow, each after a blank. Any other template is filled as one
-- of these is, the same one for all arguments.
theorem fill_marks :
    (∀ (layout : Layout) (args : List String),
      fill (String.ofList layout.written) args = String.ofList (layout.filled args)) ∧
    (∀ text : String, fill (String.ofList (escape text.toList)) [] = text) ∧
    ∀ template : String, ∃ layout : Layout, ∀ args : List String,
      fill template args = fill (String.ofList layout.written) args := by
  have hwritten (layout : Layout) (args : List String) :
      fill (String.ofList layout.written) args = String.ofList (layout.filled args) := by
    rw [fill, String.toList_ofList, fillChars_eq_filled, Layout.read_written]
  refine ⟨hwritten, fun text => ?_, fun template => ⟨Layout.read template.toList, fun args => ?_⟩⟩
  · have hplain : Layout.filled [] ⟨text.toList, []⟩ = text.toList := by
      simp only [Layout.filled, List.mapIdx_nil, List.flatten_nil, List.drop_nil, surplus,
        List.flatMap_nil, List.append_nil]
    have hfill := hwritten ⟨text.toList, []⟩ []
    rwa [hplain, String.ofList_toList] at hfill
  · rw [hwritten, fill, fillChars_eq_filled]

example : fill "100%%: %s of %s%s" ["%s", "50%%", "", "left"] = "100%: %s of 50%% left" := by
  decide +kernel

end Rulebook.Template
