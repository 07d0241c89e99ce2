import DocMarkdown.Proofs.Converter.Transcript
import DocMarkdown.Proofs.Layout.Flags

/-! What the flags of a session say about the elements that are open. A flag is set by a start tag
and cleared by the next end tag of the same element, so that it is wrong about an element in which
another one of its kind has closed. The flag for headings follows raw sections wherever they
stand. -/

namespace DocMarkdown
open Layout Markdown Xml

theorem Element.ofTag?_eq_some_iff {name : Text} {x : Element} :
    Element.ofTag? name = some x ↔ name = x.tag := by
  refine ⟨fun h => ?_, fun h => h ▸ Element.ofTag?_tag x⟩
  have hfound := List.find?_some h
  simpa using (beq_iff_eq.mp hfound).symm

namespace Xml.Event

theorem openNames_append (names : List Text) (es fs : List Event) :
    openNames names (es ++ fs) = openNames (openNames names es) fs := by
  induction es generalizing names with
  | nil => rfl
  | cons e es ih => cases e <;> exact ih _

theorem Nested.of_append {names : List Text} {es fs : List Event} (h : Nested names (es ++ fs)) :
    Nested names es ∧ Nested (openNames names es) fs := by
  induction es generalizing names with
  | nil => exact ⟨.nil names, h⟩
  | cons e es ih =>
    cases h with
    | opened attributes h => exact ⟨.opened attributes (ih h).1, (ih h).2⟩
    | closed h => exact ⟨.closed (ih h).1, (ih h).2⟩
    | text t h => exact ⟨.text t (ih h).1, (ih h).2⟩
    | raw h => exact ⟨.raw (ih h).1, (ih h).2⟩
    | endRaw h => exact ⟨.endRaw (ih h).1, (ih h).2⟩

/-- Somewhere in the events, the property holds of those before and the one that comes then. -/
def Occurs (p : List Event → Event → Prop) (es : List Event) : Prop :=
  ∃ before e after, es = before ++ e :: after ∧ p before e

/-- One of the events starts something, and none after it ends it. -/
def Since (starts ends : List Event → Event → Prop) (es : List Event) : Prop :=
  ∃ before e after, es = before ++ e :: after ∧ starts before e ∧
    ¬ Occurs (fun mid => ends (before ++ e :: mid)) after

section Since
variable {p starts ends : List Event → Event → Prop} {es : List Event} {e : Event}

theorem occurs_nil : ¬ Occurs p [] := by
  rintro ⟨before, e, after, h, -⟩
  simp at h

theorem since_nil : ¬ Since starts ends [] := by
  rintro ⟨before, e, after, h, -⟩
  simp at h

theorem concat_eq_cut {before after : List Event} {x : Event} :
    es ++ [e] = before ++ x :: after ↔
      (after = [] ∧ before = es ∧ x = e) ∨
        ∃ after', after = after' ++ [e] ∧ es = before ++ x :: after' := by
  constructor
  · intro h
    rcases List.eq_nil_or_concat' after with rfl | ⟨after', y, rfl⟩
    · obtain ⟨rfl, hx⟩ := List.append_inj' h rfl
      cases hx
      exact .inl ⟨rfl, rfl, rfl⟩
    · have hsplit : es ++ [e] = (before ++ x :: after') ++ [y] := by simpa using h
      obtain ⟨rfl, hy⟩ := List.append_inj' hsplit rfl
      cases hy
      exact .inr ⟨after', rfl, rfl⟩
  · rintro (⟨rfl, rfl, rfl⟩ | ⟨after', rfl, rfl⟩)
    · rfl
    · simp

theorem occurs_concat : Occurs p (es ++ [e]) ↔ p es e ∨ Occurs p es := by
  constructor
  · rintro ⟨before, x, after, hes, hp⟩
    rcases concat_eq_cut.mp hes with ⟨rfl, rfl, rfl⟩ | ⟨after', rfl, rfl⟩
    · exact .inl hp
    · exact .inr ⟨before, x, after', rfl, hp⟩
  · rintro (hp | ⟨before, x, after, rfl, hp⟩)
    · exact ⟨es, e, [], rfl, hp⟩
    · exact ⟨before, x, after ++ [e], by simp, hp⟩

theorem occurs_cons :
    Occurs p (e :: es) ↔ p [] e ∨ Occurs (fun before => p (e :: before)) es := by
  constructor
  · rintro ⟨_ | ⟨y, before⟩, x, after, hes, hp⟩
    · obtain ⟨rfl, rfl⟩ := List.cons_eq_cons.mp hes
      exact .inl hp
    · obtain ⟨rfl, rfl⟩ := List.cons_eq_cons.mp hes
      exact .inr ⟨before, x, after, rfl, hp⟩
  · rintro (hp | ⟨before, x, after, rfl, hp⟩)
    · exact ⟨[], e, es, rfl, hp⟩
    · exact ⟨e :: before, x, after, rfl, hp⟩

theorem since_concat :
    Since starts ends (es ++ [e]) ↔ starts es e ∨ (¬ ends es e ∧ Since starts ends es) := by
  constructor
  · rintro ⟨before, x, after, hes, hstart, hlast⟩
    rcases concat_eq_cut.mp hes with ⟨rfl, rfl, rfl⟩ | ⟨after', rfl, rfl⟩
    · exact .inl hstart
    · rw [occurs_concat, not_or] at hlast
      exact .inr ⟨hlast.1, before, x, after', rfl, hstart, hlast.2⟩
  · rintro (hstart | ⟨hend, before, x, after, rfl, hstart, hlast⟩)
    · exact ⟨es, e, [], rfl, hstart, occurs_nil⟩
    · refine ⟨before, x, after ++ [e], by simp, hstart, ?_⟩
      rw [occurs_concat, not_or]
      exact ⟨hend, hlast⟩

theorem since_append {fs : List Event} :
    Since starts ends (es ++ fs) ↔
      Since (fun mid => starts (es ++ mid)) (fun mid => ends (es ++ mid)) fs ∨
        Since starts ends es ∧ ¬ Occurs (fun mid => ends (es ++ mid)) fs := by
  induction fs using List.reverseRecOn with
  | nil => simp [since_nil, occurs_nil]
  | append_singleton fs e ih =>
    rw [← List.append_assoc, since_concat, since_concat, occurs_concat, ih]
    tauto

theorem since_cut {before after : List Event} :
    Since starts ends (before ++ e :: after) ↔
      Since (fun mid => starts (before ++ e :: mid)) (fun mid => ends (before ++ e :: mid)) after ∨
        Since starts ends (before ++ [e]) ∧
          ¬ Occurs (fun mid => ends (before ++ e :: mid)) after := by
  rw [List.append_cons, since_append]
  simp only [List.append_assoc, List.singleton_append]

end Since

def Opens (x : Element) (_ : List Event) : Event → Prop
  | .openElement name _ => Element.ofTag? name = some x
  | _ => False

def Closes (x : Element) (_ : List Event) : Event → Prop
  | .closeElement name => Element.ofTag? name = some x
  | _ => False

abbrev LastOpened (x : Element) : List Event → Prop := Since (Opens x) (Closes x)

abbrev LastClosed (x : Element) : List Event → Prop := Since (Closes x) (Opens x)

section Tags
variable {x : Element} {es : List Event}

theorem not_lastOpened_and_lastClosed : ¬ (LastOpened x es ∧ LastClosed x es) := by
  induction es using List.reverseRecOn with
  | nil => exact fun h => since_nil h.1
  | append_singleton es e ih =>
    rw [LastOpened, LastClosed, since_concat, since_concat]
    cases e <;> simp only [Opens, Closes] <;> tauto

section
variable {names : List Text} {before : List Event} {e : Event}

theorem mem_openNames_of_opens (h : Opens x before e) : x.tag ∈ openNames names [e] := by
  cases e with
  | openElement name attributes =>
    rw [Element.ofTag?_eq_some_iff.mp h]
    exact List.mem_cons_self
  | _ => exact h.elim

theorem opens_or_mem_of_openNames (h : x.tag ∈ openNames names [e]) :
    Opens x before e ∨ x.tag ∈ names := by
  cases e with
  | openElement name attributes =>
    exact (List.mem_cons.mp h).imp (fun hx => Element.ofTag?_eq_some_iff.mpr hx.symm) id
  | closeElement name => exact .inr (List.mem_of_mem_tail h)
  | _ => exact .inr h

theorem mem_openNames_of_not_closes (hes : Nested names [e]) (hx : x.tag ∈ names)
    (hclose : ¬ Closes x before e) : x.tag ∈ openNames names [e] := by
  cases hes with
  | opened => exact List.mem_cons_of_mem _ hx
  | closed =>
    refine (List.mem_cons.mp hx).resolve_left fun h => hclose ?_
    exact Element.ofTag?_eq_some_iff.mpr h.symm
  | text | raw | endRaw => exact hx

end

theorem mem_openNames_of_not_occurs {names : List Text} (hes : Nested names es)
    (hx : x.tag ∈ names) (hclose : ¬ Occurs (Closes x) es) : x.tag ∈ openNames names es := by
  induction es using List.reverseRecOn with
  | nil => exact hx
  | append_singleton es e ih =>
    rw [occurs_concat, not_or] at hclose
    rw [openNames_append]
    exact mem_openNames_of_not_closes hes.of_append.2 (ih hes.of_append.1 hclose.2) hclose.1

theorem mem_openNames_of_lastOpened (hes : Nested [] es) (h : LastOpened x es) :
    x.tag ∈ openNames [] es := by
  obtain ⟨before, e, after, rfl, hopen, hclose⟩ := h
  rw [List.append_cons] at hes ⊢
  rw [openNames_append]
  refine mem_openNames_of_not_occurs hes.of_append.2 ?_ hclose
  rw [openNames_append]
  exact mem_openNames_of_opens hopen

theorem lastOpened_or_lastClosed (hx : x.tag ∈ openNames [] es) :
    LastOpened x es ∨ LastClosed x es := by
  induction es using List.reverseRecOn with
  | nil => exact absurd hx List.not_mem_nil
  | append_singleton es e ih =>
    rw [openNames_append] at hx
    rw [LastOpened, LastClosed, since_concat, since_concat]
    have horigin : Opens x es e ∨ x.tag ∈ openNames [] es := opens_or_mem_of_openNames hx
    rcases horigin with hopen | hmem
    · exact .inl (.inl hopen)
    · have hlast := ih hmem
      tauto

/-- The last tag of an open element is a start tag, unless one of its kind has ended within it. -/
theorem lastOpened_iff (hes : Nested [] es) :
    LastOpened x es ↔ x.tag ∈ openNames [] es ∧ ¬ LastClosed x es := by
  constructor
  · intro h
    exact ⟨mem_openNames_of_lastOpened hes h, fun hc => not_lastOpened_and_lastClosed ⟨h, hc⟩⟩
  · exact fun h => (lastOpened_or_lastClosed h.1).resolve_right h.2

end Tags

def rawOf (es : List Event) : Option (List Text) :=
  es.foldl (fun raw e => e.rawAfter raw) none

/-- A raw section ends here that is the tag of a heading and not a line of code. -/
def HeadingTag (before : List Event) : Event → Prop
  | .closeRaw => ¬ LastOpened .codeListing before ∧
    (Fragment.read ((rawOf before).getD []).reverse.flatten).isHeading = true
  | _ => False

def StrayHeading (before : List Event) (e : Event) : Prop :=
  HeadingTag before e ∧ Element.rawHtml.tag ∉ openNames [] before

theorem since_heading_iff {es : List Event} (hes : Nested [] es)
    (hoff : Element.rawHtml.tag ∉ openNames [] es) :
    Since HeadingTag (Closes .rawHtml) es ↔ Since StrayHeading (Closes .rawHtml) es := by
  constructor
  · rintro ⟨before, e, after, rfl, htag, hclose⟩
    refine ⟨before, e, after, rfl, ⟨htag, fun hopen => hoff ?_⟩, hclose⟩
    -- raw HTML around the tag would still be open
    rw [openNames_append]
    refine mem_openNames_of_not_occurs hes.of_append.2 hopen ?_
    rw [occurs_cons, not_or]
    cases e with
    | closeRaw => exact ⟨id, hclose⟩
    | _ => exact htag.elim
  · rintro ⟨before, e, after, rfl, htag, hclose⟩
    exact ⟨before, e, after, rfl, htag.1, hclose⟩

/-- A line of its own begins: a paragraph, a code listing, a line of it or its end, or raw HTML
outside a paragraph. -/
def BeginsLine (before : List Event) : Event → Prop
  | .openElement name _ =>
    Element.ofTag? name = some .para ∨ Element.ofTag? name = some .codeListing ∨
      Element.ofTag? name = some .rawHtml ∧ ¬ LastOpened .para before
  | .closeElement name => Element.ofTag? name = some .codeListing
  | .closeRaw => LastOpened .codeListing before
  | _ => False

end Xml.Event

namespace Layout.Flags
open Event

def after (f : Flags) (raw : Option (List Text)) : Event → Flags
  | .openElement name _ => (Element.ofTag? name).elim f f.opened
  | .closeElement name => (Element.ofTag? name).elim f f.closed
  | .closeRaw => f.rawBlock (raw.getD []).reverse.flatten
  | _ => f

structure Tells (es : List Event) (f : Flags) : Prop where
  para : f.para = true ↔ LastOpened .para es
  listing : f.listing = true ↔ LastOpened .codeListing es
  heading : f.heading = true ↔ Since HeadingTag (Closes .rawHtml) es
  skip : f.skip = true ↔ Since (Opens .item) BeginsLine es

variable {f : Flags} {es : List Event}

theorem Tells.nil : Tells [] {} := by
  constructor <;> simp [since_nil]

section After
variable (f : Flags) (raw : Option (List Text)) (es : List Event) (e : Event)

theorem para_after : (f.after raw e).para = true ↔
    Opens .para es e ∨ ¬ Closes .para es e ∧ f.para = true := by
  cases e with
  | openElement name =>
    cases he : Element.ofTag? name <;> simp [Flags.after, Opens, Closes, he, para_opened]
  | closeElement name =>
    cases he : Element.ofTag? name <;> simp [Flags.after, Opens, Closes, he, para_closed]
  | closeRaw => simp [Flags.after, Opens, Closes, para_rawBlock]
  | characters | openRaw => simp [Flags.after, Opens, Closes]

theorem listing_after : (f.after raw e).listing = true ↔
    Opens .codeListing es e ∨ ¬ Closes .codeListing es e ∧ f.listing = true := by
  cases e with
  | openElement name =>
    cases he : Element.ofTag? name <;> simp [Flags.after, Opens, Closes, he, listing_opened]
  | closeElement name =>
    cases he : Element.ofTag? name <;> simp [Flags.after, Opens, Closes, he, listing_closed]
  | closeRaw => simp [Flags.after, Opens, Closes, listing_rawBlock]
  | characters | openRaw => simp [Flags.after, Opens, Closes]

variable {f es}

theorem heading_after (hlisting : f.listing = true ↔ LastOpened .codeListing es) :
    (f.after (rawOf es) e).heading = true ↔
      HeadingTag es e ∨ ¬ Closes .rawHtml es e ∧ f.heading = true := by
  cases e with
  | openElement name =>
    cases he : Element.ofTag? name <;> simp [Flags.after, HeadingTag, Closes, he, heading_opened]
  | closeElement name =>
    cases he : Element.ofTag? name <;> simp [Flags.after, HeadingTag, Closes, he, heading_closed]
  | closeRaw => simp [Flags.after, HeadingTag, Closes, heading_rawBlock, ← hlisting]
  | characters | openRaw => simp [Flags.after, HeadingTag, Closes]

theorem skip_after (hpara : f.para = true ↔ LastOpened .para es)
    (hlisting : f.listing = true ↔ LastOpened .codeListing es) :
    (f.after raw e).skip = true ↔
      Opens .item es e ∨ ¬ BeginsLine es e ∧ f.skip = true := by
  cases e with
  | openElement name =>
    cases he : Element.ofTag? name <;>
      simp [Flags.after, Opens, BeginsLine, he, skip_opened, ← hpara]
  | closeElement name =>
    cases he : Element.ofTag? name <;> simp [Flags.after, Opens, BeginsLine, he, skip_closed]
  | closeRaw => simp [Flags.after, Opens, BeginsLine, skip_rawBlock, ← hlisting]
  | characters | openRaw => simp [Flags.after, Opens, BeginsLine]

end After

theorem Tells.after (h : f.Tells es) (e : Event) : Tells (es ++ [e]) (f.after (rawOf es) e) where
  para := by rw [LastOpened, since_concat, ← LastOpened, ← h.para, para_after]
  listing := by rw [LastOpened, since_concat, ← LastOpened, ← h.listing, listing_after]
  heading := by rw [since_concat, ← h.heading, heading_after e h.listing]
  skip := by rw [since_concat, ← h.skip, skip_after (rawOf es) e h.para h.listing]

end Layout.Flags

namespace Layout.Session
variable {s : Session}

theorem openElement_rawHtml (h : s.context.para = true) (attributes : Attributes) :
    s.openElement .rawHtml attributes = (s, some (.endRawHtml false)) := by
  simp [openElement, h]

theorem openElement_rawHtmlBlock (h : s.context.para = false) (attributes : Attributes) :
    s.openElement .rawHtml attributes = (s.writeLineStart [], some (.endRawHtml true)) := by
  simp [openElement, h]

theorem head_output_rawBlock (h : s.context.codeListing = false) (content : Text) :
    (s.rawBlock content).output.head? = some (Fragment.read content).markdown := by
  rw [rawBlock_fragment h]
  cases Fragment.read content <;> rfl

theorem text_endRawHtml (s : Session) :
    (s.close (.endRawHtml true)).text = s.text ↔ s.context.htmlHeading = true := by
  cases hheading : s.context.htmlHeading with
  | true => simp [close, hheading, text]
  | false => simp [close, hheading, text, write]

end Layout.Session

namespace Stretch
variable {s : Stretch} {names : List Text} {es : List Event}

def Owing (names : List Text) (s : Stretch) : Prop :=
  List.Forall₂ (fun name action => ∃ attributes, Owes (name, attributes) action) names s.ends

theorem flags_closeOwed (session : Session) {name : Text} {attributes : Attributes}
    {action : Option Action} (h : Owes (name, attributes) action) :
    (session.closeWith action).flags =
      (Element.ofTag? name).elim session.flags session.flags.closed := by
  obtain ⟨opened, rfl⟩ := h
  cases he : Element.ofTag? name with
  | none => rfl
  | some e => exact session.flags_closeWith e attributes opened

theorem flags_after {e : Event} (he : Event.Nested names [e]) (h : s.Owing names) :
    (s.after e).session.flags = s.session.flags.after s.raw e ∧
      (s.after e).Owing (Event.openNames names [e]) := by
  cases he with
  | @opened _ name attributes =>
    obtain ⟨-, -, -, action, howes, hends⟩ := s.open_marks name attributes
    refine ⟨?_, ?_⟩
    · cases hx : Element.ofTag? name with
      | none => rw [after_openOther attributes hx, Flags.after, hx, Option.elim_none]
      | some x =>
        rw [after_openLayout attributes hx, Flags.after, hx, Option.elim_some]
        exact s.session.flags_openElement x attributes
    · rw [Owing, hends]
      exact .cons ⟨attributes, howes⟩ h
  | @closed _ name =>
    obtain ⟨action, ends, ⟨attributes, howes⟩, hrest, hends⟩ := List.forall₂_cons_left_iff.mp h
    rw [after_close name hends]
    exact ⟨flags_closeOwed s.session howes, hrest⟩
  | text t =>
    cases hraw : s.raw with
    | none =>
      simp only [after, hraw]
      exact ⟨s.session.flags_literal t, h⟩
    | some pieces =>
      simp only [after, hraw]
      exact ⟨rfl, h⟩
  | raw => exact ⟨rfl, h⟩
  | endRaw => exact ⟨s.session.flags_rawBlock _, h⟩

theorem tells_run {session : Session} (hsession : session.flags = {})
    (hes : Event.Nested [] es) :
    Flags.Tells es (run ⟨session, [], none⟩ es).session.flags := by
  let begun : Stretch := ⟨session, [], none⟩
  suffices h : Flags.Tells es (begun.run es).session.flags ∧ (begun.run es).raw = Event.rawOf es ∧
      (begun.run es).Owing (Event.openNames [] es) from h.1
  induction es using List.reverseRecOn with
  | nil => exact ⟨hsession ▸ Flags.Tells.nil, rfl, .nil⟩
  | append_singleton es e ih =>
    obtain ⟨htells, hraw, howing⟩ := ih hes.of_append.1
    obtain ⟨hflags, howing'⟩ := flags_after hes.of_append.2 howing
    have hlast : begun.run (es ++ [e]) = (begun.run es).after e := run_append begun es [e]
    rw [hlast, hflags, hraw, raw_after, hraw, Event.openNames_append]
    refine ⟨htells.after e, ?_, howing'⟩
    rw [Event.rawOf, Event.rawOf, List.foldl_append]
    rfl

end Stretch

theorem Operation.feed_alone {σ κ : Type} (x : σ) (c : Converter κ) (mode : Mode)
    {es : List Event} (hes : Event.Nested [] es) :
    feed none es ⟨x, (c.beginCapture mode).start false⟩ = .ok ()
      ⟨x, (Stretch.run ⟨.new c.config.indentWidth mode, [], none⟩ es).on
        ((c.beginCapture mode).start false) []⟩ := by
  have hpasses : ∀ name (attributes : Attributes), Event.openElement name attributes ∈ es →
      Passes (none : Option (Client σ κ)) false x name := fun _ _ _ _ => .inl rfl
  exact feed_stretch (c := (c.beginCapture mode).start false) [] hes rfl
    (Stretch.sound_new _ none) hpasses

/-- Without a client, in a new capture, a paragraph and a code listing are taken for open just
while they are open and none of their kind has ended within them. The flag for headings is up
outside raw HTML when the tag of a heading has stood outside it. So raw HTML is inline and raw
characters are code by the same rule, and a block of raw HTML ends without a line feed if the last
tag of a heading stands in it, or before it with no raw HTML that ends in between. -/
theorem Operation.feed_flags {σ κ : Type} (x : σ) (c : Converter κ) (mode : Mode)
    {es : List Event} (hes : Event.Nested [] es) :
    ∃ w, feed none es ⟨x, (c.beginCapture mode).start false⟩ = .ok () w ∧
      let s := w.converter.session
      let within (e : Element) := e.tag ∈ Event.openNames [] es ∧ ¬ Event.LastClosed e es
      (s.context.para = true ↔ within .para) ∧
      (s.context.codeListing = true ↔ within .codeListing) ∧
      (Element.rawHtml.tag ∉ Event.openNames [] es → (s.context.htmlHeading = true ↔
        Event.Since Event.StrayHeading (Event.Closes .rawHtml) es)) ∧
      (∀ attributes, within .para →
        s.openElement .rawHtml attributes = (s, some (.endRawHtml false))) ∧
      (∀ attributes, ¬ within .para →
        s.openElement .rawHtml attributes = (s.writeLineStart [], some (.endRawHtml true))) ∧
      (∀ content, within .codeListing → s.rawBlock content = s.writeMargin (content ++ ['\n'])) ∧
      (∀ content, ¬ within .codeListing →
        (s.rawBlock content).output.head? = some (Fragment.read content).markdown) ∧
      ∀ before attributes content,
        es = before ++ .openElement Element.rawHtml.tag attributes :: content →
        ((s.close (.endRawHtml true)).text = s.text ↔
          Event.Since
            (fun mid => Event.HeadingTag
              (before ++ .openElement Element.rawHtml.tag attributes :: mid))
            (Event.Closes .rawHtml) content ∨
          Event.Since Event.HeadingTag (Event.Closes .rawHtml) before ∧
            ¬ Event.Occurs (Event.Closes .rawHtml) content) := by
  obtain ⟨hpara, hlisting, hheading, -⟩ : Flags.Tells es
      (Stretch.run ⟨.new c.config.indentWidth mode, [], none⟩ es).session.flags :=
    Stretch.tells_run (Session.flags_new _ mode) hes
  rw [Event.lastOpened_iff hes] at hpara hlisting
  refine ⟨_, feed_alone x c mode hes, hpara, hlisting, fun hoff => ?_, ?_, ?_, ?_, ?_, ?_⟩
  · exact hheading.trans (Event.since_heading_iff hes hoff)
  · exact fun attributes h => Session.openElement_rawHtml (hpara.mpr h) attributes
  · intro attributes h
    exact Session.openElement_rawHtmlBlock (Bool.eq_false_iff.mpr (mt hpara.mp h)) attributes
  · exact fun content h => Session.rawBlock_listing (hlisting.mpr h) content
  · intro content h
    exact Session.head_output_rawBlock (Bool.eq_false_iff.mpr (mt hlisting.mp h)) content
  · rintro before attributes content rfl
    refine (Session.text_endRawHtml _).trans (hheading.trans (Event.since_cut.trans ?_))
    rw [Event.since_concat]
    simp only [Event.HeadingTag, Event.Closes, not_false_eq_true, true_and, false_or]
    rfl

private def headingBehindInner : List Event :=
  [.openElement "Para".toList [], .openElement "Para".toList [], .characters "a".toList,
    .closeElement "Para".toList, .openRaw, .characters "<h1>".toList, .closeRaw]

theorem Operation.feed_headingBehindInner :
    Event.Nested [] headingBehindInner ∧
    ∃ w : World Unit Empty,
      feed none headingBehindInner
        ⟨(), ((Converter.new {}).beginCapture .markdown).start false⟩ = .ok () w ∧
      Element.para.tag ∈ Event.openNames [] headingBehindInner ∧
      Event.LastClosed .para headingBehindInner ∧
      w.converter.session.context.para = false ∧
      Element.rawHtml.tag ∉ Event.openNames [] headingBehindInner ∧
      w.converter.session.context.htmlHeading = true ∧
      Event.Since Event.StrayHeading (Event.Closes .rawHtml) headingBehindInner ∧
      ∀ attributes, w.converter.session.openElement .rawHtml attributes =
        (w.converter.session.writeLineStart [], some (.endRawHtml true)) := by
  have hnested : Event.Nested [] headingBehindInner :=
    .opened _ (.opened _ (.text _ (.closed (.raw (.text _ (.endRaw (.nil _)))))))
  have hopen : Element.para.tag ∈ Event.openNames [] headingBehindInner := by decide
  have houtside : Element.rawHtml.tag ∉ Event.openNames [] headingBehindInner := by decide
  have hclosed : Event.LastClosed .para headingBehindInner := by
    refine ⟨headingBehindInner.take 3, _, _, rfl, rfl, ?_⟩
    simp [Event.occurs_cons, Event.occurs_nil, Event.Opens]
  obtain ⟨w, hfeed, hpara, -, hheading, -, hblock, -⟩ :=
    feed_flags () (Converter.new {} : Converter Empty) .markdown hnested
  have hup : w.converter.session.context.htmlHeading = true := by
    cases hfeed
    rfl
  have hoff : w.converter.session.context.para = false :=
    Bool.eq_false_iff.mpr fun h => (hpara.mp h).2 hclosed
  exact ⟨hnested, w, hfeed, hopen, hclosed, hoff, houtside, hup, (hheading houtside).mp hup,
    fun attributes => hblock attributes fun h => h.2 hclosed⟩

end DocMarkdown
