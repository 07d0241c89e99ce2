import DocMarkdown.Proofs.Client.Schema
import DocMarkdown.Proofs.Converter.Stretch

/-! The record that is built for a document of the schema is the one that the document says.
What the builder captures is rendered as if it stood alone, and between the captures nothing is
kept but the record and the parameter that is open. -/

namespace DocMarkdown
open Layout Xml Operation

namespace Xml.Tree

theorem nested_eventsOf (names : List Text) (content : List Tree) {rest : List Event}
    (h : Event.Nested names rest) : Event.Nested names (eventsOf content ++ rest) := by
  induction content using contentInduction generalizing names rest with
  | nil => exact h
  | characters t others ih => exact .text t (ih names h)
  | raw pieces others ih =>
    have hpieces : ∀ {rest : List Event}, Event.Nested names rest →
        Event.Nested names (pieces.map .characters ++ rest) := by
      intro rest hrest
      induction pieces with
      | nil => exact hrest
      | cons t pieces ih => exact .text t ih
    simp only [eventsOf, events, List.cons_append, List.append_assoc, List.nil_append]
    exact .raw (hpieces (.endRaw (ih names h)))
  | element name attributes content others ihc ih =>
    rw [eventsOf_cons_element]
    exact .opened attributes (ihc (name :: names) (.closed (ih names h)))

theorem plain_of_opened {content : List Tree} (h : plainAll content = true) {name : Text}
    {attributes : Attributes} (ho : Event.openElement name attributes ∈ eventsOf content) :
    Part.ofTag? name = none := by
  induction content using contentInduction with
  | nil => cases ho
  | characters t others ih =>
    simp only [plainAll, Bool.and_eq_true] at h
    simp only [eventsOf, events, List.cons_append, List.nil_append, List.mem_cons, reduceCtorEq,
      false_or] at ho
    exact ih h.2 ho
  | raw pieces others ih =>
    simp only [plainAll, Bool.and_eq_true] at h
    simp only [eventsOf, events, List.mem_append, List.mem_cons, List.mem_map, reduceCtorEq,
      false_or, and_false, exists_false, List.not_mem_nil, or_false] at ho
    exact ih h.2 ho
  | element n a content others ihc ih =>
    simp only [plainAll, plain, Bool.and_eq_true, Option.isNone_iff_eq_none] at h
    simp only [eventsOf, events, List.mem_append, List.mem_cons, Event.openElement.injEq,
      reduceCtorEq, List.not_mem_nil, or_false, or_assoc] at ho
    rcases ho with ⟨rfl, rfl⟩ | ho | ho
    · exact h.1.1
    · exact ihc h.1.2 ho
    · exact ih h.2 ho

theorem run_pieces (pieces : List Text) {s : Stretch} {before : List Text}
    (hs : s.raw = some before) :
    s.run (pieces.map .characters) = { s with raw := some (pieces.reverse ++ before) } := by
  induction pieces generalizing s before with
  | nil => simp [Stretch.run, ← hs]
  | cons t pieces ih =>
    have ht : s.after (.characters t) = { s with raw := some (t :: before) } := by
      simp only [Stretch.after, hs]
    rw [List.map_cons, Stretch.run_cons, ht, ih rfl]
    simp

theorem run_eventsOf (content : List Tree) {s : Stretch} (hraw : s.raw = none) :
    s.run (eventsOf content) = { s with session := layoutAll content s.session } := by
  induction content using contentInduction generalizing s with
  | nil => rfl
  | characters t others ih =>
    have ht : s.after (.characters t) = { s with session := s.session.literal t } := by
      simp only [Stretch.after, hraw]
    simp only [eventsOf, events, List.cons_append, List.nil_append, Stretch.run_cons, ht,
      layoutAll, layout]
    exact ih hraw
  | raw pieces others ih =>
    simp only [eventsOf, events, List.cons_append, List.append_assoc, Stretch.run_cons,
      Stretch.run_append, layoutAll, layout]
    have hpieces := run_pieces pieces (s := { s with raw := some [] }) rfl
    rw [show s.after .openRaw = { s with raw := some [] } from rfl, hpieces]
    simp only [Stretch.run, List.foldl_nil, Stretch.after, Option.getD_some,
      List.append_nil, List.reverse_reverse]
    exact (ih rfl).trans (by rw [hraw])
  | element name attributes content others ihc ih =>
    have hevents : eventsOf (element name attributes content :: others) =
        .openElement name attributes ::
          (eventsOf content ++ .closeElement name :: eventsOf others) := by
      simp [eventsOf, events]
    rw [hevents, Stretch.run_cons, Stretch.run_append, Stretch.run_cons]
    cases he : Element.ofTag? name with
    | none =>
      have hin := ihc (s := { s with ends := none :: s.ends }) hraw
      rw [Stretch.after_openOther attributes he, hin, Stretch.after_close name rfl]
      simp only [layoutAll, layout, he]
      exact ih hraw
    | some e =>
      let opened := s.session.openElement e attributes
      have hin := ihc (s := { s with session := opened.1, ends := opened.2 :: s.ends }) hraw
      rw [Stretch.after_openLayout attributes he, hin, Stretch.after_close name rfl]
      simp only [layoutAll, layout, he]
      exact ih hraw

end Xml.Tree

structure Converter.Idle {κ : Type} (c : Converter κ) : Prop where
  capturing : c.capturing = false
  saved : c.saved = []
  raw : c.raw = none
  listening : c.listening = true

theorem Converter.Idle.push {κ : Type} {c : Converter κ} (h : c.Idle) (p : Pending κ) :
    (c.push p).Idle := ⟨h.capturing, h.saved, h.raw, h.listening⟩

namespace Operation
open Tree

variable {base : Converter Part} {b : Builder} {s : Session}

theorem feed_plain (hb : b.rooted = true) (hraw : base.raw = none) {content : List Tree}
    (hc : plainAll content = true) (rest : List Event) :
    feed (some Builder.client) (eventsOf content ++ rest) (base.showing (b, s)) =
      feed (some Builder.client) rest (base.showing (b, layoutAll content s)) := by
  have hnested : Event.Nested [] (eventsOf content) := by
    simpa using nested_eventsOf [] content (.nil [])
  have hon : ∀ s, (Stretch.on base base.pending { session := s }) = { base with session := s } := by
    simp [Stretch.on, hraw]
  have hpasses : ∀ name attributes, Event.openElement name attributes ∈ eventsOf content →
      Passes (some Builder.client) base.listening b name :=
    fun name attributes ho => Builder.passes_of_plain hb (plain_of_opened hc ho) base.listening
  have hfeed := feed_stretch (s := { session := s }) base.pending hnested rfl
    (Stretch.sound_new s none) hpasses
  rw [run_eventsOf content rfl, hon, hon] at hfeed
  exact feed_append hfeed

theorem handle_openPart (hb : b.rooted = true) (hi : base.Idle) {part : Part} {mode : Mode}
    (hpart : b.captureMode part = some mode) (attributes : Attributes) :
    handle (some Builder.client) (.openElement part.tag attributes) (base.showing (b, s)) =
      .ok () ((Converter.push (.client part) { base with capturing := true }).showing
        (b, base.fresh mode)) := by
  have he : Element.ofTag? part.tag = none := by cases part <;> decide
  have hopening : Builder.habit.opening part.tag attributes (base.showing (b, s)) =
      (some part, b) := by
    have hroot : b.root part.tag attributes = b := Builder.root_of_rooted hb _ _
    simp only [Builder.habit, Part.ofTag?_tag, Converter.showing, hroot]
    cases part with
    | parameter => cases hpart
    | _ => simp only [hpart, Option.map_some]
  have hmode : Builder.habit.mode part = some mode := by
    cases part with
    | parameter => cases hpart
    | discussion =>
      simp only [Builder.captureMode] at hpart
      split at hpart
      · exact hpart
      · cases hpart
    | _ => exact hpart
  rw [handle_openOffered he hi.listening (Builder.client_follows.opening _ _ _), hopening]
  simp only [Option.bind_some, hmode, Converter.enter, Converter.beginCapture, left,
    Converter.showing, hi.capturing, Bool.false_eq_true, if_false]
  rfl

theorem close_part (hi : base.Idle) {part : Part} (hpart : part ≠ .parameter) :
    close (some Builder.client) (.client part)
        (Converter.showing { base with capturing := true } (b, s)) =
      .ok () (base.showing (b.store part s.captured, base.fresh .markdown)) := by
  have hclose := Builder.client_follows.closing part
    (Converter.showing { base with capturing := true } (b, s))
  have hsaved := hi.saved
  have hcapturing := hi.capturing
  change Builder.client.closing part _ = _
  rw [hclose]
  obtain ⟨config, session, saved, capturing, pending, raw, running, listening, reports⟩ := base
  cases hsaved
  cases hcapturing
  cases part with
  | parameter => exact absurd rfl hpart
  | _ => rfl

theorem feed_part (hb : b.rooted = true) (hi : base.Idle) {part : Part} {mode : Mode}
    (hpart : b.captureMode part = some mode) (attributes : Attributes) {content : List Tree}
    (hc : plainAll content = true) (rest : List Event) :
    feed (some Builder.client) (eventsOf [.element part.tag attributes content] ++ rest)
        (base.showing (b, s)) =
      feed (some Builder.client) rest
        (base.showing (b.store part (layoutAll content (base.fresh mode)).captured,
          base.fresh .markdown)) := by
  have hne : part ≠ .parameter := by
    rintro rfl
    cases hpart
  let within : Converter Part := { base with capturing := true }
  have hraw : (within.push (.client part)).raw = none := hi.raw
  have hin : ∀ rest, feed (some Builder.client) (eventsOf content ++ rest)
      ((within.push (.client part)).showing (b, base.fresh mode)) =
        feed (some Builder.client) rest
          ((within.push (.client part)).showing (b, layoutAll content (base.fresh mode))) :=
    fun rest => feed_plain hb hraw hc rest
  exact feed_element part.tag attributes content [] rest
    (handle_openPart hb hi hpart attributes) hin (close_part hi hne)

end Operation

namespace Schema
open Operation Tree

variable {base : Converter Part} {b : Builder} {s : Session}

theorem plain_characters (pieces : List Text) :
    plainAll (pieces.map .characters) = true := by
  induction pieces with
  | nil => rfl
  | cons t pieces ih => exact ih

theorem layoutAll_characters (pieces : List Text) {s : Session} (hs : s.mode = .text) :
    layoutAll (pieces.map .characters) s =
      { s with output := pieces.reverse ++ s.output } := by
  induction pieces generalizing s with
  | nil => rfl
  | cons t pieces ih =>
    have ht : s.literal t = s.write t := by simp only [Session.literal, hs]
    simp only [List.map_cons, layoutAll, layout, ht]
    rw [ih (s := s.write t) hs]
    simp [Session.write]

theorem captured_characters (width : Nat) (pieces : List Text) :
    (layoutAll (pieces.map .characters) (.new width .text)).captured = pieces.flatten := by
  rw [layoutAll_characters pieces rfl]
  simp [Session.captured, Session.text, Session.new]

theorem feed_label (hb : b.rooted = true) (hi : base.Idle) (l : Label) (attributes : Attributes)
    (pieces : List Text) (rest : List Event) :
    feed (some Builder.client) (eventsOf [labelTree l attributes pieces] ++ rest)
        (base.showing (b, s)) =
      feed (some Builder.client) rest
        (base.showing (b.store l.part pieces.flatten, base.fresh .markdown)) := by
  have hpart : b.captureMode l.part = some .text := by cases l <;> rfl
  have hfeed := feed_part (s := s) hb hi hpart attributes (plain_characters pieces) rest
  rwa [Converter.fresh, captured_characters] at hfeed

theorem markdown_element {name : Text} (hname : Element.ofTag? name = none)
    (attributes : Attributes) (content : List Tree) (width : Nat) :
    (element name attributes content).markdown width =
      (layoutAll content (.new width .markdown)).captured := by
  simp only [Tree.markdown, layout, hname]

/-- Fed with the content, the builder comes from `b` to `b'`. What is left in the current session
between two captures is of no account. -/
def Brings (base : Converter Part) (content : List Tree) (b b' : Builder) : Prop :=
  ∀ s, ∃ s', ∀ rest, feed (some Builder.client) (eventsOf content ++ rest) (base.showing (b, s)) =
    feed (some Builder.client) rest (base.showing (b', s'))

namespace Brings
variable {b' b'' : Builder} {content others : List Tree}

theorem append (h : Brings base content b b') (h' : Brings base others b' b'') :
    Brings base (content ++ others) b b'' := by
  intro s
  obtain ⟨s', hs'⟩ := h s
  obtain ⟨s'', hs''⟩ := h' s'
  refine ⟨s'', fun rest => ?_⟩
  rw [eventsOf_append, List.append_assoc, hs', hs'']

theorem flatMap {α : Type} {trees : α → List Tree} {step : Builder → α → Builder}
    {P : Builder → Prop} (hstep : ∀ a b, P b → Brings base (trees a) b (step b a))
    (hP : ∀ a b, P b → P (step b a)) (items : List α) (hb : P b) :
    Brings base (items.flatMap trees) b (items.foldl step b) := by
  induction items generalizing b with
  | nil => exact fun s => ⟨s, fun _ => rfl⟩
  | cons a items ih => exact (hstep a b hb).append (ih (hP a b hb))

theorem body (hb : b.rooted = true) (hi : base.Idle) (body : Markup) :
    Brings base body.content b b :=
  fun _ => ⟨_, fun rest => feed_plain hb hi.raw body.plain rest⟩

theorem label (hb : b.rooted = true) (hi : base.Idle) (l : Label) (attributes : Attributes)
    (pieces : List Text) :
    Brings base [labelTree l attributes pieces] b (b.store l.part pieces.flatten) :=
  fun _ => ⟨_, fun rest => feed_label hb hi l attributes pieces rest⟩

theorem discourse (hb : b.rooted = true) (hi : base.Idle) {part : Part}
    (hpart : b.captureMode part = some .markdown) (attributes : Attributes) (body : Markup) :
    Brings base [.element part.tag attributes body.content] b
      (b.store part
        ((element part.tag attributes body.content).markdown base.config.indentWidth)) := by
  have he : Element.ofTag? part.tag = none := by cases part <;> decide
  rw [markdown_element he]
  exact fun _ => ⟨_, fun rest => feed_part hb hi hpart attributes body.plain rest⟩

theorem element {name : Text} {attributes : Attributes} {within : Builder}
    (hname : Element.ofTag? name = none) (hi : base.Idle)
    (hopening : ∀ w, w.client = b → Builder.habit.opening name attributes w = (none, within))
    (h : Brings (base.push .nothing) content within b') :
    Brings base [.element name attributes content] b b' := by
  intro s
  obtain ⟨s', hs'⟩ := h s
  refine ⟨s', fun rest => ?_⟩
  have hopen : handle (some Builder.client) (.openElement name attributes) (base.showing (b, s)) =
      .ok () ((base.push .nothing).showing (within, s)) := by
    rw [handle_openOffered hname hi.listening (Builder.client_follows.opening _ _ _),
      hopening (base.showing (b, s)) rfl]
    rfl
  exact feed_element name attributes content [] rest hopen hs' rfl

theorem parameter (hb : b.rooted = true) (hi : base.Idle) (attributes : Attributes)
    (h : Brings (base.push (.client .parameter)) content { b with parameter := some {} } b') :
    Brings base [.element Part.parameter.tag attributes content] b b'.endParameter := by
  intro s
  obtain ⟨s', hs'⟩ := h s
  refine ⟨s', fun rest => ?_⟩
  have he : Element.ofTag? Part.parameter.tag = none := by decide
  have hroot : b.root Part.parameter.tag attributes = b := Builder.root_of_rooted hb _ _
  have hopen : handle (some Builder.client) (.openElement Part.parameter.tag attributes)
      (base.showing (b, s)) =
        .ok () ((base.push (.client .parameter)).showing ({ b with parameter := some {} }, s)) := by
    rw [handle_openOffered he hi.listening (Builder.client_follows.opening _ _ _)]
    simp only [Builder.habit, Part.ofTag?_tag, Converter.showing, hroot]
    rfl
  exact feed_element Part.parameter.tag attributes content [] rest hopen hs' rfl

end Brings

section Clauses
variable (width : Nat)

def amend (p : Parameter) (clauses : List Clause) : Parameter where
  name := (clauses.filterMap Clause.name?).getLast?.getD p.name
  discussion := (clauses.filterMap (Clause.discussion? width)).getLast?.or p.discussion

theorem amend_cons (p : Parameter) (c : Clause) (rest : List Clause) :
    amend width p (c :: rest) = amend width (amend width p [c]) rest := by
  have hname : (c :: rest).filterMap Clause.name? =
      [c].filterMap Clause.name? ++ rest.filterMap Clause.name? := by
    rw [← List.filterMap_append, List.singleton_append]
  have hdiscussion : (c :: rest).filterMap (Clause.discussion? width) =
      [c].filterMap (Clause.discussion? width) ++ rest.filterMap (Clause.discussion? width) := by
    rw [← List.filterMap_append, List.singleton_append]
  simp only [amend, hname, hdiscussion, List.getLast?_append, Option.or_assoc]
  cases (rest.filterMap Clause.name?).getLast? <;> rfl

def Clause.build (b : Builder) (c : Clause) : Builder :=
  { b with parameter := b.parameter.map (amend width · [c]) }

theorem foldl_clauses (clauses : List Clause) {p : Parameter} (hp : b.parameter = some p) :
    clauses.foldl (Clause.build width) b =
      { b with parameter := some (amend width p clauses) } := by
  induction clauses generalizing b p with
  | nil => simp [amend, ← hp]
  | cons c rest ih =>
    have hc : (Clause.build width b c).parameter = some (amend width p [c]) := by
      simp only [Clause.build, hp, Option.map_some]
    rw [List.foldl_cons, ih hc, amend_cons width p c rest]
    rfl

theorem Brings.clause (hb : b.rooted = true ∧ b.parameter.isSome = true) (hi : base.Idle)
    (c : Clause) : Brings base c.trees b (Clause.build base.config.indentWidth b c) := by
  obtain ⟨hrooted, hsome⟩ := hb
  obtain ⟨p, hp⟩ := Option.isSome_iff_exists.mp hsome
  cases c with
  | name attributes pieces =>
    have hbuild : Clause.build base.config.indentWidth b (.name attributes pieces) =
        b.store .name pieces.flatten := by
      simp [Clause.build, hp, amend, Clause.name?, Clause.discussion?, Builder.store,
        Builder.setName]
    rw [hbuild]
    exact .label hrooted hi .name attributes pieces
  | discussion attributes body =>
    have hmode : b.captureMode .discussion = some .markdown := by
      simp only [Builder.captureMode, hsome, if_true]
    have hbuild : Clause.build base.config.indentWidth b (.discussion attributes body) =
        b.store .discussion
          ((discussionTree attributes body).markdown base.config.indentWidth) := by
      simp [Clause.build, hp, amend, Clause.name?, Clause.discussion?, Builder.store,
        Builder.setDiscussion]
    rw [hbuild]
    exact .discourse hrooted hi hmode attributes body
  | other body =>
    have hbuild : Clause.build base.config.indentWidth b (.other body) = b := by
      simp [Clause.build, hp, amend, Clause.name?, Clause.discussion?]
      rw [← hp]
    rw [hbuild]
    exact .body hrooted hi body

end Clauses

section Members
variable (width : Nat)

def Member.build (b : Builder) (m : Member) : Builder :=
  { b with record := { b.record with
      parameters := b.record.parameters ++ (m.parameter? width).toList } }

theorem foldl_members (members : List Member) (b : Builder) :
    members.foldl (Member.build width) b = { b with record := { b.record with
      parameters := b.record.parameters ++ members.filterMap (Member.parameter? width) } } := by
  induction members generalizing b with
  | nil => simp
  | cons m rest ih =>
    rw [List.foldl_cons, ih]
    cases hm : m.parameter? width <;> simp [Member.build, hm]

theorem Brings.member (hb : b.rooted = true ∧ b.parameter = none) (hi : base.Idle)
    (m : Member) : Brings base m.trees b (Member.build base.config.indentWidth b m) := by
  obtain ⟨hrooted, hnone⟩ := hb
  cases m with
  | other body =>
    have hbuild : Member.build base.config.indentWidth b (.other body) = b := by
      simp [Member.build, Member.parameter?]
    rw [hbuild]
    exact .body hrooted hi body
  | parameter attributes clauses =>
    let opened : Builder := { b with parameter := some {} }
    have hin : Brings (base.push (.client .parameter)) (clauses.flatMap Clause.trees) opened
        (clauses.foldl (Clause.build base.config.indentWidth) opened) :=
      .flatMap (P := fun b => b.rooted = true ∧ b.parameter.isSome = true)
        (fun c b hb => .clause hb (hi.push _) c)
        (fun c b hb => ⟨hb.1, by simpa [Clause.build] using hb.2⟩) clauses ⟨hrooted, rfl⟩
    have hbuild : Member.build base.config.indentWidth b (.parameter attributes clauses) =
        (clauses.foldl (Clause.build base.config.indentWidth) opened).endParameter := by
      rw [foldl_clauses base.config.indentWidth clauses rfl]
      simp [Member.build, Member.parameter?, Builder.endParameter, opened, Schema.parameter, amend,
        hnone]
    rw [hbuild]
    exact .parameter hrooted hi attributes hin

end Members

section Entries
variable (width : Nat)

def extend (r : Declaration) (entries : List Entry) : Declaration :=
  { r with
    name := (entries.filterMap (Entry.label? .name)).getLast?.or r.name
    usr := (entries.filterMap (Entry.label? .usr)).getLast?.or r.usr
    declaration := (entries.filterMap (Entry.label? .declaration)).getLast?.or r.declaration
    resultDiscussion := (entries.filterMap (Entry.result? width)).getLast?.or r.resultDiscussion
    parameters := r.parameters ++
      (entries.flatMap Entry.members).filterMap (Member.parameter? width) }

theorem extend_cons (r : Declaration) (e : Entry) (rest : List Entry) :
    extend width r (e :: rest) = extend width (extend width r [e]) rest := by
  have hlabel : ∀ l, (e :: rest).filterMap (Entry.label? l) =
      [e].filterMap (Entry.label? l) ++ rest.filterMap (Entry.label? l) := by
    intro l
    rw [← List.filterMap_append, List.singleton_append]
  have hresult : (e :: rest).filterMap (Entry.result? width) =
      [e].filterMap (Entry.result? width) ++ rest.filterMap (Entry.result? width) := by
    rw [← List.filterMap_append, List.singleton_append]
  simp only [extend, hlabel, hresult, List.getLast?_append, Option.or_assoc, List.flatMap_cons,
    List.flatMap_nil, List.filterMap_append, List.append_nil, List.append_assoc]

def Entry.build (b : Builder) (e : Entry) : Builder :=
  { b with record := extend width b.record [e] }

theorem foldl_entries (entries : List Entry) (b : Builder) :
    entries.foldl (Entry.build width) b = { b with record := extend width b.record entries } := by
  induction entries generalizing b with
  | nil => simp [extend]
  | cons e rest ih =>
    rw [List.foldl_cons, ih, extend_cons width b.record e rest]
    rfl

theorem Brings.entry (hb : b.rooted = true ∧ b.parameter = none) (hi : base.Idle) (e : Entry) :
    Brings base e.trees b (Entry.build base.config.indentWidth b e) := by
  obtain ⟨hrooted, hnone⟩ := hb
  cases e with
  | label l attributes pieces =>
    have hbuild : Entry.build base.config.indentWidth b (.label l attributes pieces) =
        b.store l.part pieces.flatten := by
      cases l <;> simp [Entry.build, extend, Entry.label?, Entry.result?, Entry.members,
        Builder.store, Builder.setName, Label.part, hnone]
    rw [hbuild]
    exact .label hrooted hi l attributes pieces
  | result attributes body =>
    have hbuild : Entry.build base.config.indentWidth b (.result attributes body) =
        b.store .resultDiscussion
          ((resultTree attributes body).markdown base.config.indentWidth) := by
      simp [Entry.build, extend, Entry.label?, Entry.result?, Entry.members, Builder.store]
    rw [hbuild]
    exact .discourse hrooted hi rfl attributes body
  | discussion attributes body =>
    have hbuild : Entry.build base.config.indentWidth b (.discussion attributes body) = b := by
      simp [Entry.build, extend, Entry.label?, Entry.result?, Entry.members]
    have hopening : ∀ w, w.client = b →
        Builder.habit.opening Part.discussion.tag attributes w = (none, b) := by
      rintro w rfl
      have hroot := Builder.root_of_rooted hrooted Part.discussion.tag attributes
      simp [Builder.habit, Part.ofTag?_tag, hroot, Builder.captureMode, hnone]
    rw [hbuild]
    exact .element (by decide) hi hopening (.body hrooted (hi.push _) body)
  | member m =>
    have hbuild : Entry.build base.config.indentWidth b (.member m) =
        Member.build base.config.indentWidth b m := by
      cases hm : m.parameter? base.config.indentWidth <;>
        simp [Entry.build, extend, Entry.label?, Entry.result?, Entry.members, Member.build, hm]
    rw [hbuild]
    exact .member ⟨hrooted, hnone⟩ hi m
  | parameters attributes members =>
    have hin : Brings (base.push .nothing) (members.flatMap Member.trees) b
        (members.foldl (Member.build base.config.indentWidth) b) :=
      .flatMap (P := fun b => b.rooted = true ∧ b.parameter = none)
        (fun m b hb => .member hb (hi.push _) m) (fun _ _ hb => hb) members ⟨hrooted, hnone⟩
    have hbuild : Entry.build base.config.indentWidth b (.parameters attributes members) =
        members.foldl (Member.build base.config.indentWidth) b := by
      rw [foldl_members]
      simp [Entry.build, extend, Entry.label?, Entry.result?, Entry.members]
    have hopening : ∀ w, w.client = b →
        Builder.habit.opening "Parameters".toList attributes w = (none, b) := by
      rintro w rfl
      have hpart : Part.ofTag? "Parameters".toList = none := by decide
      have hroot := Builder.root_of_rooted hrooted "Parameters".toList attributes
      simp only [Builder.habit, hpart, hroot]
    rw [hbuild]
    exact .element (by decide) hi hopening hin

end Entries

theorem Brings.root {name : Text} (hname : Element.ofTag? name = none)
    (hpart : Part.ofTag? name = none) (hi : base.Idle) (attributes : Attributes)
    (entries : List Entry) :
    Brings base [.element name attributes (entries.flatMap Entry.trees)] {}
      { record := record base.config.indentWidth name attributes entries, rooted := true } := by
  let rooted : Builder := Builder.root name attributes {}
  have hin : Brings (base.push .nothing) (entries.flatMap Entry.trees) rooted
      (entries.foldl (Entry.build base.config.indentWidth) rooted) :=
    .flatMap (P := fun b => b.rooted = true ∧ b.parameter = none)
      (fun e b hb => .entry hb (hi.push _) e) (fun _ _ hb => hb) entries ⟨rfl, rfl⟩
  have hrecord : entries.foldl (Entry.build base.config.indentWidth) rooted =
      { record := record base.config.indentWidth name attributes entries, rooted := true } := by
    rw [foldl_entries]
    simp [rooted, Builder.root, extend, record]
  have hopening : ∀ w, w.client = {} →
      Builder.habit.opening name attributes w = (none, rooted) := by
    intro w hw
    simp only [Builder.habit, hpart, hw, rooted]
  rw [hrecord] at hin
  exact .element hname hi hopening hin

end Schema

theorem Xml.Tree.markdown_of_holds (config : Config) {d : Document} {t : Tree} (hd : d.Holds t) :
    Converter.markdown config d = (.ok (t.markdown config.indentWidth), []) := by
  let begun : Converter Empty := (Converter.new config).beginCapture .markdown
  have hfeed : feed none d.read.events ⟨(), begun.start false⟩ =
      .ok () ⟨(), { begun.start false with session := t.layout begun.session }⟩ := by
    have hf := feed_eventsOf (begun.start false) (.absent false) (.inl rfl) rfl [t] []
      ((), begun.session)
    rw [Tree.evalAll_none, List.append_nil, Tree.eventsOf_singleton] at hf
    rw [hd]
    exact hf
  have hconvert := convert_complete (w := ⟨(), begun⟩) hfeed (by rw [hd])
  have hmarkdown : (toMarkdown none d : Plain Text) ⟨(), .new config⟩ =
      .ok (t.markdown config.indentWidth) ⟨(), { (begun.start false).finish with
        session := begun.fresh .markdown, capturing := false }⟩ := bind_ok hconvert
  simp only [Converter.markdown, hmarkdown]
  rfl

namespace Declaration
open Schema

/-- The record of a document of the schema is what the document says, and nothing is reported. The
discussions in it are what the same elements become as documents of their own. -/
theorem build_eq_record (config : Config) {d : Document} {name : Text} {attributes : Attributes}
    {entries : List Entry} (hname : Element.ofTag? name = none) (hpart : Part.ofTag? name = none)
    (hd : d.Holds (.element name attributes (entries.flatMap Entry.trees))) :
    build config d = (.ok (record config.indentWidth name attributes entries), []) ∧
    ∀ (t : Tree) (d' : Document), d'.Holds t →
      Converter.markdown config d' = (.ok (t.markdown config.indentWidth), []) := by
  refine ⟨?_, fun t d' hd' => Tree.markdown_of_holds config hd'⟩
  let base : Converter Part := (Converter.new config).start true
  have hi : base.Idle := ⟨rfl, rfl, rfl, rfl⟩
  obtain ⟨s', hs'⟩ := Brings.root hname hpart hi attributes entries base.session
  have hfeed : feed (some Builder.client) d.read.events ⟨{}, base⟩ = .ok ()
      (base.showing
        ({ record := record config.indentWidth name attributes entries, rooted := true }, s')) := by
    have hf := hs' []
    rw [List.append_nil, Tree.eventsOf_singleton] at hf
    rw [hd]
    exact hf
  have hconvert : convert (some Builder.client) d ⟨{}, .new config⟩ = .ok () _ :=
    convert_complete hfeed (by rw [hd])
  simp only [build, hconvert]
  rfl

private def documented : Document :=
  .ofString ("<F line=\"3\"><Name> f_ </Name><Parameters><Parameter><Discussion>a_b</Discussion>" ++
    "<Name>p</Name></Parameter></Parameters><ResultDiscussion><List-Bullet><Item>x</Item>" ++
    "</List-Bullet></ResultDiscussion></F>")

private def documentedEvents : List Event :=
  [.openElement "F".toList [("line".toList, "3".toList)], .openElement "Name".toList [],
    .characters " f_ ".toList, .closeElement "Name".toList, .openElement "Parameters".toList [],
    .openElement "Parameter".toList [], .openElement "Discussion".toList [],
    .characters "a_b".toList, .closeElement "Discussion".toList, .openElement "Name".toList [],
    .characters "p".toList, .closeElement "Name".toList, .closeElement "Parameter".toList,
    .closeElement "Parameters".toList, .openElement "ResultDiscussion".toList [],
    .openElement "List-Bullet".toList [], .openElement "Item".toList [], .characters "x".toList,
    .closeElement "Item".toList, .closeElement "List-Bullet".toList,
    .closeElement "ResultDiscussion".toList, .closeElement "F".toList]

set_option maxRecDepth 6000 in
private theorem documented_read : documented.read = ⟨documentedEvents, .complete⟩ := by cbv

private def documentedResult : Document :=
  .ofString "<ResultDiscussion><List-Bullet><Item>x</Item></List-Bullet></ResultDiscussion>"

set_option maxRecDepth 4000 in
private theorem documentedResult_read : documentedResult.read =
    ⟨(documentedEvents.drop 14).take 7, .complete⟩ := by cbv

private def documentedEntries : List Entry :=
  [.label .name [] [" f_ ".toList],
    .parameters []
      [.parameter []
        [.discussion [] { content := [.characters "a_b".toList] }, .name [] ["p".toList]]],
    .result []
      { content := [.element "List-Bullet".toList []
        [.element "Item".toList [] [.characters "x".toList]]] }]

theorem build_documented :
    Element.ofTag? "F".toList = none ∧ Part.ofTag? "F".toList = none ∧
    documented.Holds (.element "F".toList [("line".toList, "3".toList)]
      (documentedEntries.flatMap Entry.trees)) ∧
    build {} documented =
      (.ok
        { line := some 3, kind := some "F".toList, name := some "f_".toList
          resultDiscussion := some "- x".toList
          parameters := [⟨"p".toList, some "a\\_b".toList⟩] }, []) ∧
    Converter.markdown {} documentedResult = (.ok "- x".toList, []) := by
  have hname : Element.ofTag? "F".toList = none := by decide
  have hpart : Part.ofTag? "F".toList = none := by decide
  have hholds : documented.Holds (.element "F".toList [("line".toList, "3".toList)]
      (documentedEntries.flatMap Entry.trees)) := documented_read
  obtain ⟨hbuild, halone⟩ := build_eq_record {} hname hpart hholds
  refine ⟨hname, hpart, hholds, hbuild.trans ?_, ?_⟩
  · decide
  · let result : Tree := .element "ResultDiscussion".toList []
      [.element "List-Bullet".toList [] [.element "Item".toList [] [.characters "x".toList]]]
    exact (halone result _ documentedResult_read).trans (by decide)

end Declaration
end DocMarkdown
