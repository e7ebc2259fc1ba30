import Rulebook.Json.Raw
import Rulebook.Proofs.Json.Lexemes

namespace Rulebook.Json.Raw

-- The tokens of a document.
mutual

def tokens : Raw → List Token
  | word cs => [.word cs]
  | quoted body => [.quoted body]
  | arr items => .openArr :: itemTokens items ++ [.closeArr]
  | obj members => .openObj :: memberTokens members ++ [.closeObj]

def itemTokens : List Raw → List Token
  | [] => []
  | [item] => item.tokens
  | item :: rest => item.tokens ++ .comma :: itemTokens rest

def memberTokens : List (List Char × Raw) → List Token
  | [] => []
  | [(name, value)] => .quoted name :: .colon :: value.tokens
  | (name, value) :: rest => .quoted name :: .colon :: value.tokens ++ .comma :: memberTokens rest

end

-- A text of the document: its tokens, with space wherever it may stand.
def WrittenIn (raw : Raw) (text : String) : Prop :=
  Token.Lexes text.toList raw.tokens

theorem itemTokens_append (items : List Raw) (item : Raw) :
    itemTokens (items ++ [item]) =
      (items.flatMap fun i => i.tokens ++ [.comma]) ++ item.tokens := by
  induction items with
  | nil => rfl
  | cons first rest ih =>
      have hcons : itemTokens (first :: (rest ++ [item])) =
          first.tokens ++ .comma :: itemTokens (rest ++ [item]) := by
        cases rest <;> rfl
      rw [List.cons_append, hcons, ih, List.flatMap_cons]
      simp only [List.append_assoc, List.cons_append, List.nil_append]

def memberStart (member : List Char × Raw) : List Token :=
  .quoted member.1 :: .colon :: member.2.tokens

theorem memberTokens_append (members : List (List Char × Raw)) (member : List Char × Raw) :
    memberTokens (members ++ [member]) =
      (members.flatMap fun m => memberStart m ++ [.comma]) ++ memberStart member := by
  induction members with
  | nil => rfl
  | cons first rest ih =>
      have hcons : memberTokens (first :: (rest ++ [member])) =
          memberStart first ++ .comma :: memberTokens (rest ++ [member]) := by
        cases rest <;> rfl
      rw [List.cons_append, hcons, ih, List.flatMap_cons]
      simp only [List.append_assoc, List.cons_append, List.nil_append]

-- The tokens from the start of what is open to where its next item or member, or the value of
-- its last name, begins.
def Frame.tokens : Frame → List Token
  | .arr items => .openArr :: items.reverse.flatMap fun i => i.tokens ++ [.comma]
  | .obj members => .openObj :: members.reverse.flatMap fun m => memberStart m ++ [.comma]
  | .named members name =>
      .openObj :: (members.reverse.flatMap fun m => memberStart m ++ [.comma]) ++
        [.quoted name, .colon]

def frameTokens (frames : List Frame) : List Token :=
  frames.reverse.flatMap Frame.tokens

-- The tokens that lead to a state.
inductive Reads : State → List Token → Prop
  | value (frames : List Frame) : Reads ⟨frames, .value⟩ (frameTokens frames)
  | firstItem (frames : List Frame) :
      Reads ⟨.arr [] :: frames, .firstItem⟩ (frameTokens (.arr [] :: frames))
  | firstName (frames : List Frame) :
      Reads ⟨.obj [] :: frames, .firstName⟩ (frameTokens (.obj [] :: frames))
  | name (frames : List Frame) (members : List (List Char × Raw)) :
      Reads ⟨.obj members :: frames, .name⟩ (frameTokens (.obj members :: frames))
  | colon (frames : List Frame) (members : List (List Char × Raw)) (name : List Char) :
      Reads ⟨.named members name :: frames, .colon⟩
        (frameTokens (.obj members :: frames) ++ [.quoted name])
  | moreItems (frames : List Frame) (items : List Raw) (item : Raw) :
      Reads ⟨.arr (item :: items) :: frames, .more⟩
        (frameTokens (.arr items :: frames) ++ item.tokens)
  | moreMembers (frames : List Frame) (members : List (List Char × Raw))
      (member : List Char × Raw) :
      Reads ⟨.obj (member :: members) :: frames, .more⟩
        (frameTokens (.obj members :: frames) ++ memberStart member)
  | done (value : Raw) : Reads ⟨[], .done value⟩ value.tokens

variable {frames : List Frame} {state next : State} {token : Token} {read rest : List Token}
  {raw : Raw}

theorem frameTokens_cons (frame : Frame) (frames : List Frame) :
    frameTokens (frame :: frames) = frameTokens frames ++ frame.tokens := by
  simp only [frameTokens, List.reverse_cons, List.flatMap_append, List.flatMap_singleton]

theorem reads_close (h : close raw frames = some next) :
    Reads next (frameTokens frames ++ raw.tokens) := by
  cases frames with
  | nil =>
      cases h
      exact .done raw
  | cons frame frames =>
      cases frame with
      | arr items =>
          cases h
          exact .moreItems frames items raw
      | obj members => cases h
      | named members name =>
          cases h
          have hread := Reads.moreMembers frames members (name, raw)
          simpa only [frameTokens_cons, Frame.tokens, memberStart, List.append_assoc,
            List.cons_append, List.nil_append] using hread

theorem reads_startValue (h : startValue frames token = some next) :
    Reads next (frameTokens frames ++ [token]) := by
  cases token with
  | word cs => exact reads_close h
  | quoted body => exact reads_close h
  | openArr =>
      cases h
      exact frameTokens_cons (.arr []) frames ▸ Reads.firstItem frames
  | openObj =>
      cases h
      exact frameTokens_cons (.obj []) frames ▸ Reads.firstName frames
  | closeArr | closeObj | comma | colon => cases h

theorem frameTokens_arr (items : List Raw) (frames : List Frame) (item : Raw) :
    frameTokens (.arr items :: frames) ++ item.tokens =
      frameTokens frames ++ .openArr :: itemTokens (item :: items).reverse := by
  rw [frameTokens_cons, Frame.tokens, List.reverse_cons, itemTokens_append, List.append_assoc,
    List.cons_append]

theorem frameTokens_obj (members : List (List Char × Raw)) (frames : List Frame)
    (member : List Char × Raw) :
    frameTokens (.obj members :: frames) ++ memberStart member =
      frameTokens frames ++ .openObj :: memberTokens (member :: members).reverse := by
  rw [frameTokens_cons, Frame.tokens, List.reverse_cons, memberTokens_append, List.append_assoc,
    List.cons_append]

-- One case for each state: what a step reads stands behind what was read.
theorem reads_step (hstate : Reads state read) (h : step state token = some next) :
    Reads next (read ++ [token]) := by
  cases hstate with
  | value frames => exact reads_startValue h
  | firstItem frames =>
      cases token with
      | closeArr =>
          have hread := reads_close h
          rwa [frameTokens_cons, List.append_assoc]
      | _ => exact reads_startValue h
  | firstName frames =>
      cases token with
      | closeObj =>
          have hread := reads_close h
          rwa [frameTokens_cons, List.append_assoc]
      | quoted name =>
          cases h
          exact .colon frames [] name
      | _ => cases h
  | name frames members =>
      cases token with
      | quoted name =>
          cases h
          exact .colon frames members name
      | _ => cases h
  | colon frames members name =>
      cases token with
      | colon =>
          cases h
          have hread := Reads.value (.named members name :: frames)
          simpa only [frameTokens_cons, Frame.tokens, List.append_assoc, List.cons_append,
            List.nil_append] using hread
      | _ => cases h
  | moreItems frames items item =>
      cases token with
      | comma =>
          cases h
          have hread := Reads.value (.arr (item :: items) :: frames)
          simpa only [frameTokens_cons, Frame.tokens, List.reverse_cons, List.flatMap_append,
            List.flatMap_singleton, List.append_assoc, List.cons_append] using hread
      | closeArr =>
          have hread := reads_close h
          rwa [frameTokens_arr, List.append_assoc]
      | _ => cases h
  | moreMembers frames members member =>
      cases token with
      | comma =>
          cases h
          have hread := Reads.name frames (member :: members)
          simpa only [frameTokens_cons, Frame.tokens, List.reverse_cons, List.flatMap_append,
            List.flatMap_singleton, List.append_assoc, List.cons_append] using hread
      | closeObj =>
          have hread := reads_close h
          rwa [frameTokens_obj, List.append_assoc]
      | _ => cases h
  | done value => cases h

theorem reads_foldlM {tokens : List Token} (hstate : Reads state read)
    (h : tokens.foldlM step state = some next) : Reads next (read ++ tokens) := by
  induction tokens generalizing state read with
  | nil =>
      cases h
      rwa [List.append_nil]
  | cons token tokens ih =>
      rw [List.foldlM_cons] at h
      obtain ⟨between, hstep, h⟩ := Option.bind_eq_some_iff.mp h
      have hread := ih (reads_step hstate hstep) h
      rwa [List.append_assoc, List.singleton_append] at hread

theorem Reads.eq_tokens (h : Reads ⟨frames, .done raw⟩ read) : read = raw.tokens := by
  cases h
  rfl

theorem tokens_of_run {tokens : List Token} (h : run tokens = some raw) : tokens = raw.tokens := by
  unfold run at h
  split at h
  · rename_i value hvalue
    cases h
    exact (reads_foldlM (.value []) hvalue).eq_tokens
  · cases h

-- The tokens take one state to another.
def Takes (tokens : List Token) (state next : State) : Prop :=
  tokens.foldlM step state = some next

namespace Takes

variable {tokens : List Token} {middle : State}

theorem one (h : step state token = some next) : Takes [token] state next := by
  simp only [Takes, List.foldlM_cons, h, List.foldlM_nil, Option.bind_eq_bind, Option.bind_some,
    Option.pure_def]

theorem append (h : Takes tokens state middle) (hrest : Takes rest middle next) :
    Takes (tokens ++ rest) state next := by
  rw [Takes, List.foldlM_append, h, Option.bind_eq_bind, Option.bind_some, hrest]

-- An item may stand where the array could end as well.
theorem firstItem {item : Raw} {items read : List Raw}
    (h : Takes (itemTokens (item :: items)) ⟨.arr read :: frames, .value⟩ next) :
    Takes (itemTokens (item :: items)) ⟨.arr read :: frames, .firstItem⟩ next := by
  cases items <;> cases item <;> exact h

theorem items {item : Raw} {items : List Raw}
    (hitems : ∀ item' ∈ item :: items, ∀ read,
      Takes item'.tokens ⟨.arr read :: frames, .value⟩ ⟨.arr (item' :: read) :: frames, .more⟩)
    (read : List Raw) :
    Takes (itemTokens (item :: items)) ⟨.arr read :: frames, .value⟩
      ⟨.arr ((item :: items).reverse ++ read) :: frames, .more⟩ := by
  induction items generalizing item read with
  | nil => exact hitems item (List.mem_singleton_self item) read
  | cons next items ih =>
      obtain ⟨hitem, hrest⟩ := List.forall_mem_cons.mp hitems
      rw [List.reverse_cons, List.append_assoc, List.singleton_append]
      exact (hitem read).append ((one rfl).append (ih hrest (item :: read)))

theorem name (member : List Char × Raw) (read : List (List Char × Raw)) :
    Takes [.quoted member.1, .colon] ⟨.obj read :: frames, .name⟩
      ⟨.named read member.1 :: frames, .value⟩ :=
  (one rfl).append (one rfl)

-- A name may stand where the object could end as well.
theorem firstName {member : List Char × Raw} {members read : List (List Char × Raw)}
    (h : Takes (memberTokens (member :: members)) ⟨.obj read :: frames, .name⟩ next) :
    Takes (memberTokens (member :: members)) ⟨.obj read :: frames, .firstName⟩ next := by
  cases members <;> exact h

theorem members {member : List Char × Raw} {members : List (List Char × Raw)}
    (hvalues : ∀ member' ∈ member :: members, ∀ read,
      Takes member'.2.tokens ⟨.named read member'.1 :: frames, .value⟩
        ⟨.obj (member' :: read) :: frames, .more⟩)
    (read : List (List Char × Raw)) :
    Takes (memberTokens (member :: members)) ⟨.obj read :: frames, .name⟩
      ⟨.obj ((member :: members).reverse ++ read) :: frames, .more⟩ := by
  induction members generalizing member read with
  | nil => exact (name member read).append (hvalues member (List.mem_singleton_self member) read)
  | cons next members ih =>
      obtain ⟨hvalue, hrest⟩ := List.forall_mem_cons.mp hvalues
      have hfirst := (name member read).append (hvalue read)
      rw [List.reverse_cons, List.append_assoc, List.singleton_append]
      exact hfirst.append ((one rfl).append (ih hrest (member :: read)))

end Takes

-- A document is put together from its tokens, and goes where the reader stands.
mutual

theorem takes_tokens (raw : Raw) {frames : List Frame} {next : State}
    (hclose : close raw frames = some next) : Takes raw.tokens ⟨frames, .value⟩ next := by
  match raw with
  | word cs => exact .one hclose
  | quoted body => exact .one hclose
  | arr items =>
      have hopen : Takes [.openArr] ⟨frames, .value⟩ ⟨.arr [] :: frames, .firstItem⟩ := .one rfl
      cases items with
      | nil => exact hopen.append (.one hclose)
      | cons item rest =>
          have hitems := Takes.items (takes_items (item :: rest) frames) []
          have hend : step ⟨.arr (item :: rest).reverse :: frames, .more⟩ .closeArr =
              close (arr (item :: rest).reverse.reverse) frames := rfl
          refine (hopen.append hitems.firstItem).append (.one ?_)
          rw [List.append_nil, hend, List.reverse_reverse, hclose]
  | obj members =>
      have hopen : Takes [.openObj] ⟨frames, .value⟩ ⟨.obj [] :: frames, .firstName⟩ := .one rfl
      cases members with
      | nil => exact hopen.append (.one hclose)
      | cons member rest =>
          have hmembers := Takes.members (takes_members (member :: rest) frames) []
          have hend : step ⟨.obj (member :: rest).reverse :: frames, .more⟩ .closeObj =
              close (obj (member :: rest).reverse.reverse) frames := rfl
          refine (hopen.append hmembers.firstName).append (.one ?_)
          rw [List.append_nil, hend, List.reverse_reverse, hclose]

theorem takes_items (items : List Raw) (frames : List Frame) :
    ∀ item ∈ items, ∀ read,
      Takes item.tokens ⟨.arr read :: frames, .value⟩ ⟨.arr (item :: read) :: frames, .more⟩ := by
  match items with
  | [] => exact nofun
  | first :: rest =>
      exact List.forall_mem_cons.mpr
        ⟨fun read => takes_tokens first rfl, takes_items rest frames⟩

theorem takes_members (members : List (List Char × Raw)) (frames : List Frame) :
    ∀ member ∈ members, ∀ read,
      Takes member.2.tokens ⟨.named read member.1 :: frames, .value⟩
        ⟨.obj (member :: read) :: frames, .more⟩ := by
  match members with
  | [] => exact nofun
  | (name, value) :: rest =>
      exact List.forall_mem_cons.mpr
        ⟨fun read => takes_tokens value rfl, takes_members rest frames⟩

end

theorem run_eq_some_iff {tokens : List Token} : run tokens = some raw ↔ tokens = raw.tokens := by
  refine ⟨tokens_of_run, ?_⟩
  rintro rfl
  have htakes : raw.tokens.foldlM step ⟨[], .value⟩ = some ⟨[], .done raw⟩ :=
    takes_tokens raw rfl
  rw [run, htakes]

-- A text is taken apart exactly into the document that it is a text of.
theorem parse?_eq_some_iff {text : String} : parse? text = some raw ↔ raw.WrittenIn text := by
  simp only [parse?, Option.bind_eq_some_iff, Token.scan_eq_some_iff, run_eq_some_iff,
    exists_eq_right]
  rfl

end Rulebook.Json.Raw
