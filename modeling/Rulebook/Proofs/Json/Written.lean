import Rulebook.Proofs.Json.Layout
import Rulebook.Proofs.Json.Quoted

namespace Rulebook.Json

-- Strings, and arrays and objects of them. Their tokens end where they end, whatever
-- comes next.
inductive Textual : Json → Prop
  | str (s : String) : Textual (.str s)
  | arr {items : List Json} (hitems : ∀ item ∈ items, Textual item) : Textual (.arr items)
  | obj {members : List (String × Json)} (hvalues : ∀ member ∈ members, Textual member.2) :
      Textual (.obj members)

-- The document that is written for a value.
mutual

def raw : Json → Raw
  | null => .word "null".toList
  | bool true => .word "true".toList
  | bool false => .word "false".toList
  | num n => .word n.write
  | str s => .quoted (s.toList.flatMap escape)
  | arr items => .arr (rawItems items)
  | obj members => .obj (rawMembers members)

def rawItems : List Json → List Raw
  | [] => []
  | item :: rest => item.raw :: rawItems rest

def rawMembers : List (String × Json) → List (List Char × Raw)
  | [] => []
  | (name, value) :: rest => (name.toList.flatMap escape, value.raw) :: rawMembers rest

end

theorem rawItems_eq_map (items : List Json) : rawItems items = items.map raw := by
  induction items with
  | nil => rfl
  | cons item rest ih => rw [rawItems, ih, List.map_cons]

theorem Piece.Reads.closed {body : List Char} {pieces : List Piece} (h : Reads body pieces) :
    Token.Closed body := by
  have hdigit {c : Char} {n : Nat} (hc : Text.hexValue c = some n) : c ≠ '"' ∧ c ≠ '\\' := by
    constructor <;> rintro rfl <;> cases hc
  induction h with
  | nil => exact .nil
  | plain hquote hslash _ _ ih => exact .char hquote hslash ih
  | letter _ _ ih => exact .escape _ ih
  | unit ha hb hc hd _ ih =>
      refine .escape 'u' (.char ?_ ?_ (.char ?_ ?_ (.char ?_ ?_ (.char ?_ ?_ ih))))
      all_goals first | exact (hdigit ‹_›).1 | exact (hdigit ‹_›).2

theorem closed_escape (s : String) : Token.Closed (s.toList.flatMap escape) := by
  obtain ⟨pieces, hreads, -⟩ := quotes_escape s
  exact hreads.closed

namespace Token

-- A text that gives the tokens before any other text.
def Spells (text : List Char) (tokens : List Token) : Prop :=
  ∀ rest more, Lexes rest more → Lexes (text ++ rest) (tokens ++ more)

namespace Spells

variable {text text' : List Char} {tokens tokens' : List Token}

theorem nil : Spells [] [] := fun _ _ h => h

theorem append (h : Spells text tokens) (h' : Spells text' tokens') :
    Spells (text ++ text') (tokens ++ tokens') := fun rest more hrest => by
  rw [List.append_assoc, List.append_assoc]
  exact h _ _ (h' rest more hrest)

theorem lexes (h : Spells text tokens) : Lexes text tokens := by
  have hlexes := h [] [] .nil
  rwa [List.append_nil, List.append_nil] at hlexes

theorem space {c : Char} (hc : c ∈ spaces) : Spells [c] [] :=
  fun _ _ hrest => .space hc hrest

theorem mark {c : Char} {token : Token} (hc : (c, token) ∈ marks) : Spells [c] [token] :=
  fun _ _ hrest => .mark hc hrest

theorem quote (s : String) : Spells (quote s) [.quoted (s.toList.flatMap escape)] :=
  fun rest more hrest => by
    have htext : Json.quote s ++ rest = '"' :: (s.toList.flatMap escape ++ '"' :: rest) := by
      simp only [Json.quote, List.cons_append, List.append_assoc, List.nil_append]
    rw [htext]
    exact .quoted (closed_escape s) hrest

theorem newline (indent : Nat) : Spells (newline indent) [] := by
  have hspaces (count : Nat) : Spells (List.replicate count ' ') [] := by
    induction count with
    | zero => exact nil
    | succ count ih => exact (space (c := ' ') (by decide)).append ih
  exact (space (c := '\n') (by decide)).append (hspaces (2 * indent))

-- What stands between two brackets may end with a line.
theorem enclosed {opening closing : Char} {first last : Token} (h : Spells text tokens)
    (hopen : (opening, first) ∈ marks) (hclose : (closing, last) ∈ marks) (indent : Nat) :
    Spells (opening :: text ++ Json.newline indent ++ [closing]) (first :: tokens ++ [last]) := by
  have hbody := ((mark hopen).append h).append (newline indent)
  rw [List.append_nil] at hbody
  exact hbody.append (mark hclose)

theorem comma : Spells [','] [.comma] := mark (by decide)

theorem writeItems {items : List Json}
    (hitems : ∀ item ∈ items, Spells item.write item.raw.tokens) :
    Spells (writeItems items) (Raw.itemTokens (rawItems items)) := by
  induction items with
  | nil => exact nil
  | cons item rest ih =>
      obtain ⟨hitem, hrest⟩ := List.forall_mem_cons.mp hitems
      cases rest with
      | nil => exact hitem
      | cons next rest => exact hitem.append (comma.append (ih hrest))

theorem writeMembers {members : List (String × Json)}
    (hvalues : ∀ member ∈ members, Spells member.2.write member.2.raw.tokens) :
    Spells (writeMembers members) (Raw.memberTokens (rawMembers members)) := by
  induction members with
  | nil => exact nil
  | cons member rest ih =>
      obtain ⟨name, value⟩ := member
      obtain ⟨hvalue, hrest⟩ := List.forall_mem_cons.mp hvalues
      have hcolon : Spells [':'] [.colon] := mark (by decide)
      have hfirst := (quote name).append (hcolon.append hvalue)
      cases rest with
      | nil => exact hfirst
      | cons next rest => exact hfirst.append (comma.append (ih hrest))

theorem prettyItems {indent : Nat} {items : List Json}
    (hitems : ∀ item ∈ items, Spells (writePretty indent item) item.raw.tokens) :
    Spells (prettyItems indent items) (Raw.itemTokens (rawItems items)) := by
  induction items with
  | nil => exact nil
  | cons item rest ih =>
      obtain ⟨hitem, hrest⟩ := List.forall_mem_cons.mp hitems
      have hfirst := (newline indent).append hitem
      cases rest with
      | nil => exact hfirst
      | cons next rest => exact hfirst.append (comma.append (ih hrest))

theorem prettyMembers {indent : Nat} {members : List (String × Json)}
    (hvalues : ∀ member ∈ members, Spells (writePretty indent member.2) member.2.raw.tokens) :
    Spells (prettyMembers indent members) (Raw.memberTokens (rawMembers members)) := by
  induction members with
  | nil => exact nil
  | cons member rest ih =>
      obtain ⟨name, value⟩ := member
      obtain ⟨hvalue, hrest⟩ := List.forall_mem_cons.mp hvalues
      have hcolon : Spells [':', ' '] [.colon] :=
        (mark (c := ':') (by decide)).append (space (c := ' ') (by decide))
      have hfirst := (((newline indent).append (quote name)).append hcolon).append hvalue
      cases rest with
      | nil => exact hfirst
      | cons next rest => exact hfirst.append (comma.append (ih hrest))

end Spells

end Token

open Token (Spells)

-- Without any space the tokens are those of the document.
theorem Textual.spells_write {value : Json} (h : value.Textual) :
    Spells value.write value.raw.tokens := by
  have harr : Spells ['['] [.openArr] ∧ Spells [']'] [.closeArr] :=
    ⟨.mark (by decide), .mark (by decide)⟩
  have hobj : Spells ['{'] [.openObj] ∧ Spells ['}'] [.closeObj] :=
    ⟨.mark (by decide), .mark (by decide)⟩
  induction h with
  | str s => exact .quote s
  | arr _ ih => exact (harr.1.append (.writeItems ih)).append harr.2
  | obj _ ih => exact (hobj.1.append (.writeMembers ih)).append hobj.2

-- The layout of a text adds nothing to them.
theorem Textual.spells_writePretty {value : Json} (h : value.Textual) (indent : Nat) :
    Spells (value.writePretty indent) value.raw.tokens := by
  induction h generalizing indent with
  | str s => exact .quote s
  | @arr items _ ih =>
      have hitems := Spells.prettyItems fun item hitem => ih item hitem (indent + 1)
      cases items with
      | nil => exact (Spells.mark (c := '[') (by decide)).append (.mark (by decide))
      | cons item rest => exact hitems.enclosed (by decide) (by decide) indent
  | @obj members _ ih =>
      have hmembers := Spells.prettyMembers fun member hmember => ih member hmember (indent + 1)
      cases members with
      | nil => exact (Spells.mark (c := '{') (by decide)).append (.mark (by decide))
      | cons member rest => exact hmembers.enclosed (by decide) (by decide) indent

-- What is written for a value of strings is a text of its document, in either form.
theorem Textual.raw_writtenIn {value : Json} (h : value.Textual) :
    value.raw.WrittenIn value.compact ∧ value.raw.WrittenIn (value.pretty ++ "\n") := by
  constructor
  · rw [Raw.WrittenIn, compact, String.toList_ofList]
    exact h.spells_write.lexes
  · have hline : Spells ['\n'] [] := .space (by decide)
    have hspells := (h.spells_writePretty 0).append hline
    rw [List.append_nil] at hspells
    rw [Raw.WrittenIn, String.toList_append, pretty, String.toList_ofList]
    exact hspells.lexes

end Rulebook.Json
