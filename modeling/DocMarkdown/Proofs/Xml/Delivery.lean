import DocMarkdown.Document

/-! What a reading delivers is nested: every end closes the element opened last, and elements
open and close only outside raw sections. This holds of every document, also of one that is
refused, up to the place of the fault, and of the content of entities. -/

namespace DocMarkdown.Xml

abbrev Site := List Text × Bool

/-- The events, the last one first, lead from the beginning of a document to this place. -/
inductive Event.Leads : List Event → Site → Prop
  | nil : Leads [] ([], false)
  | opened {es : List Event} {names : List Text} {name : Text} {attributes : Attributes}
      (h : Leads es (names, false)) :
      Leads (.openElement name attributes :: es) (name :: names, false)
  | closed {es : List Event} {names : List Text} {name : Text}
      (h : Leads es (name :: names, false)) : Leads (.closeElement name :: es) (names, false)
  | text {es : List Event} {p : Site} {t : Text} (h : Leads es p) :
      Leads (.characters t :: es) p
  | raw {es : List Event} {names : List Text} (h : Leads es (names, false)) :
      Leads (.openRaw :: es) (names, true)
  | endRaw {es : List Event} {names : List Text} (h : Leads es (names, true)) :
      Leads (.closeRaw :: es) (names, false)

theorem Event.Leads.nested {es : List Event} {p : Site} (h : Event.Leads es p) :
    ∀ rest, Event.Nested p.1 rest → Event.Nested [] (es.reverse ++ rest) := by
  induction h with
  | nil => exact fun _ hr => hr
  | opened _ ih =>
    intro rest hr
    rw [List.reverse_cons, List.append_assoc]
    exact ih _ (.opened _ hr)
  | closed _ ih =>
    intro rest hr
    rw [List.reverse_cons, List.append_assoc]
    exact ih _ (.closed hr)
  | text _ ih =>
    intro rest hr
    rw [List.reverse_cons, List.append_assoc]
    exact ih _ (.text _ hr)
  | raw _ ih =>
    intro rest hr
    rw [List.reverse_cons, List.append_assoc]
    exact ih _ (.raw hr)
  | endRaw _ ih =>
    intro rest hr
    rw [List.reverse_cons, List.append_assoc]
    exact ih _ (.endRaw hr)

namespace Trail

theorem leads_flush {t : Trail} {p : Site} (h : Event.Leads t.events p) :
    Event.Leads t.flush.events p := by
  unfold flush
  split
  · exact h
  · exact .text h

theorem leads_hold {t : Trail} {p : Site} (piece : Text) (h : Event.Leads t.events p) :
    Event.Leads (t.hold piece).events p := by
  have hflush : Event.Leads
      (if heldLimit < t.width + textWidth piece then t.flush else t).events p := by
    split
    · exact leads_flush h
    · exact h
  unfold hold
  simp only
  split
  · exact .text hflush
  · exact hflush

theorem leads_holdText {t : Trail} {p : Site} (converts : Bool) (text : Text)
    (h : Event.Leads t.events p) : Event.Leads (t.holdText converts text).events p := by
  unfold holdText
  split
  · generalize pieces text = pieces
    induction pieces generalizing t with
    | nil => exact h
    | cons piece pieces ih => exact ih (leads_hold piece h)
  · exact leads_hold text h

end Trail

/-- From the place `p` the reader leads to the place `q` of its result, or to any place if it comes
upon a fault. -/
def DeliversTo {ε α : Type} (x : EStateM ε Trail α) (p : Site) (q : α → Site) : Prop :=
  ∀ trail, Event.Leads trail.events p →
    match x trail with
    | .ok a trail => Event.Leads trail.events (q a)
    | .error _ trail => ∃ r, Event.Leads trail.events r

abbrev Delivers {ε α : Type} (x : EStateM ε Trail α) (p q : Site) : Prop :=
  DeliversTo x p fun _ => q

namespace DeliversTo
variable {ε α β : Type} {x : EStateM ε Trail α} {p : Site} {q : α → Site} {r : β → Site}

theorem pure (q : α → Site) (a : α) : DeliversTo (Pure.pure a : EStateM ε Trail α) (q a) q :=
  fun _ h => h

theorem throw (e : ε) : DeliversTo (MonadExcept.throw e : EStateM ε Trail α) p q :=
  fun _ h => ⟨p, h⟩

theorem throwBind (e : ε) (f : α → EStateM ε Trail β) :
    DeliversTo (MonadExcept.throw e >>= f) p r := fun _ h => ⟨p, h⟩

theorem bind {f : α → EStateM ε Trail β} (hx : DeliversTo x p q)
    (hf : ∀ a, DeliversTo (f a) (q a) r) : DeliversTo (x >>= f) p r := by
  intro trail h
  have hfirst := hx trail h
  change match EStateM.bind x f trail with
    | .ok b trail => Event.Leads trail.events (r b)
    | .error _ trail => ∃ r, Event.Leads trail.events r
  unfold EStateM.bind
  cases hr : x trail with
  | ok a t =>
    rw [hr] at hfirst
    exact hf a t hfirst
  | error e t =>
    rw [hr] at hfirst
    exact hfirst

end DeliversTo

namespace Delivers
variable {ε α β : Type} {x : EStateM ε Trail α} {p q : Site} {r : β → Site}

theorem pure (a : α) : Delivers (Pure.pure a : EStateM ε Trail α) p p := fun _ h => h

theorem throw (e : ε) : Delivers (MonadExcept.throw e : EStateM ε Trail α) p q :=
  fun _ h => ⟨p, h⟩

theorem bind {f : α → EStateM ε Trail β} (hx : Delivers x p q)
    (hf : ∀ a, DeliversTo (f a) q r) : DeliversTo (x >>= f) p r :=
  DeliversTo.bind hx hf

theorem adaptExcept {ε' : Type} (f : ε → ε') (hx : Delivers x p q) :
    Delivers (EStateM.adaptExcept f x) p q := by
  intro trail h
  have hfirst := hx trail h
  unfold EStateM.adaptExcept
  cases hr : x trail with
  | ok a t =>
    rw [hr] at hfirst
    exact hfirst
  | error e t =>
    rw [hr] at hfirst
    exact hfirst

theorem change {f : Trail → Trail}
    (hf : ∀ t, Event.Leads t.events p → Event.Leads (f t).events q) :
    Delivers (modify f : EStateM ε Trail PUnit) p q := fun t h => hf t h

theorem spend (s : Source) (start : Nat) (rest : List Cell) :
    Delivers (Delivery.spend s start rest) p p := by
  intro trail h
  unfold Delivery.spend
  cases trail.tally.spend s.scope.account start (offsetOf s.stop rest) with
  | ok tally => exact h
  | error reason => exact ⟨p, h⟩

theorem text (s : Source) (t : Text) : Delivers (Delivery.text s t) p p :=
  change fun _ h => Trail.leads_holdText s.converts t h

theorem char (c : Char) : Delivers (Delivery.char c) p p := change fun _ h => Trail.leads_hold [c] h

theorem values {α : Type} (start : Nat) (v : ValueReader α) :
    Delivers (Delivery.values start v) p p := by
  intro trail h
  unfold Delivery.values
  cases v trail.tally with
  | ok a tally => exact h
  | error f tally => exact ⟨p, h⟩

theorem event {e : Event} (he : ∀ es, Event.Leads es p → Event.Leads (e :: es) q) :
    Delivers (Delivery.event e) p q :=
  change fun _ h => he _ (Trail.leads_flush h)

theorem collect (s : Source) (start : Nat) (piece : Text) (rest : List Cell) :
    Delivers (readRaw.collect s start piece rest) p p := by
  unfold readRaw.collect
  split
  · exact (spend s start rest).bind fun _ => text s piece.reverse
  · exact pure _

theorem lineEnd (s : Source) (start : Nat) (rest next : List Cell)
    (hr : Delivers (Xml.readRaw s start [] next) p q) (offset : Nat) :
    Delivers (do
      Delivery.spend s offset rest
      Delivery.char '\n'
      Xml.readRaw s start [] next) p q :=
  (spend s offset rest).bind fun _ => (char '\n').bind fun _ => hr

theorem readRaw (s : Source) (names : List Text) (start : Nat) (piece : Text)
    (cells : List Cell) :
    Delivers (Xml.readRaw s start piece cells) (names, true) (names, false) := by
  fun_induction Xml.readRaw s start piece cells with
  | case1 start piece => exact (collect s start piece []).bind fun _ => throw _
  | case2 start piece c rest hc => exact (collect s start piece _).bind fun _ => throw _
  | case3 start piece c rest hc => exact (collect s start piece _).bind fun _ => throw _
  | case4 start piece c rest hc ih =>
    exact (collect s start piece _).bind fun _ => lineEnd s _ rest rest ih c.offset
  | case5 start piece c rest hc ih =>
    refine (collect s start piece _).bind fun _ => ?_
    cases rest with
    | nil => exact throw _
    | cons d rest =>
      simp only at ih ⊢
      split
      · exact lineEnd s _ rest rest ih.1 c.offset
      · exact lineEnd s _ _ _ ih.2 c.offset
  | case6 start piece c rest hbracket _ _ _ _ ih =>
    refine (collect s start piece _).bind fun _ => ?_
    split
    · refine (spend s _ _).bind fun _ => ?_
      exact (event fun _ h => .endRaw h).bind fun _ => pure _
    · exact throw _
    · exact ih
  | case7 start piece c rest hbracket _ _ _ _ ih => exact ih

theorem contentEnd (s : Source) (outer names : List Text) (offset : Nat) :
    Delivers (Xml.contentEnd s names offset) (names ++ outer, false) (outer, false) := by
  unfold Xml.contentEnd
  split
  · exact throw _
  · split
    · rename_i hnames
      rw [List.isEmpty_iff.mp hnames]
      exact pure _
    · exact throw _

end Delivers

def Turn.site (outer : List Text) : Turn → Site
  | .next names => (names ++ outer, false)
  | .raw names => (names ++ outer, true)
  | .done => (outer, false)

theorem site_afterClose (s : Source) (outer names : List Text) :
    (afterClose s names).site outer = (names ++ outer, false) := by
  unfold afterClose
  split
  · rename_i hroot
    simp only [Bool.and_eq_true, List.isEmpty_iff] at hroot
    rw [hroot.2]
    rfl
  · rfl

namespace Delivers
variable {ε α : Type} {x : EStateM ε Trail α} {p q : Site}

theorem afterClose (s : Source) (outer names : List Text) :
    DeliversTo (return Xml.afterClose s names : Delivery Turn) (names ++ outer, false)
      (Turn.site outer) := by
  rw [← site_afterClose s outer names]
  exact .pure (Turn.site outer) _

theorem deliverToken (s : Source) {expand : Expansion} (outer names : List Text)
    (hexpand : ∀ name names, Delivers (expand name) (names, false) (names, false))
    (start : Nat) (token : Token) :
    DeliversTo (Xml.deliverToken s expand names start token) (names ++ outer, false)
      (Turn.site outer) := by
  have next : DeliversTo (return .next names : Delivery Turn) (names ++ outer, false)
      (Turn.site outer) := .pure (Turn.site outer) _
  cases token with
  | text t => exact (text s t).bind fun _ => next
  | tail t offset =>
    refine (text s t).bind fun _ => ?_
    split
    · exact .throw _
    · exact (contentEnd s outer names _).bind fun _ => DeliversTo.pure (Turn.site outer) .done
  | reference r =>
    cases r with
    | character x =>
      cases x with
      | none => exact .throw _
      | some x => exact (char x).bind fun _ => next
    | entity name =>
      simp only [Xml.deliverToken]
      split
      · have hcount : Delivers (modify fun trail : Trail =>
            { trail with tally := trail.tally.addPredefined } : Delivery PUnit)
            (names ++ outer, false) (names ++ outer, false) := change fun _ h => h
        exact hcount.bind fun _ => (char _).bind fun _ => next
      · exact (adaptExcept _ (hexpand name _)).bind fun _ => next
  | openTag tag =>
    refine (values start _).bind fun attributes => ?_
    refine (event fun _ h => .opened h).bind fun _ => ?_
    split
    · exact (event fun _ h => .closed h).bind fun _ => afterClose s outer names
    · exact DeliversTo.pure (Turn.site outer) (.next (tag.name :: names))
  | closeTag name offset =>
    cases names with
    | nil => exact .throw _
    | cons innermost names =>
      simp only [Xml.deliverToken]
      split
      · exact .throwBind _ _
      · rename_i hname
        rw [Decidable.not_not] at hname
        rw [hname]
        exact (event fun _ h => .closed h).bind fun _ => afterClose s outer names
  | skipped => exact next
  | declaration => exact .throw _
  | rawStart =>
    exact (event fun _ h => .raw h).bind fun _ => DeliversTo.pure (Turn.site outer) (.raw names)

theorem readTurn (s : Source) {expand : Expansion} (outer names : List Text)
    (hexpand : ∀ name names, Delivers (expand name) (names, false) (names, false))
    (c : Cell) (rest : List Cell) :
    DeliversTo (Xml.readTurn s expand names c rest) (names ++ outer, false)
      fun p => (p.1.getD [] ++ outer, false) := by
  let site : Option (List Text) × List Cell → Site := fun p => (p.1.getD [] ++ outer, false)
  unfold Xml.readTurn
  split
  · exact .throw _
  · refine (spend s _ _).bind fun _ => ?_
    refine (deliverToken s outer names hexpand _ _).bind fun turn => ?_
    cases turn with
    | next names => exact DeliversTo.pure site (some names, _)
    | raw names =>
      exact (readRaw s _ _ _ _).bind fun rest => DeliversTo.pure site (some names, rest)
    | done => exact DeliversTo.pure site (none, _)

theorem readContent (s : Source) {expand : Expansion} (outer : List Text)
    (hexpand : ∀ name names, Delivers (expand name) (names, false) (names, false))
    (fuel : Nat) (names : List Text) (cells : List Cell) :
    Delivers (Xml.readContent s expand fuel names cells) (names ++ outer, false)
      (outer, false) := by
  induction fuel generalizing names cells with
  | zero => exact throw _
  | succ fuel ih =>
    cases cells with
    | nil => exact (contentEnd s outer names s.stop).bind fun _ => pure _
    | cons c rest =>
      refine (readTurn s outer names hexpand c rest).bind fun ⟨turn, rest⟩ => ?_
      cases turn with
      | some names => exact ih names rest
      | none => exact pure _

theorem expandInContent (d : Doctype) (depth : Nat) :
    ∀ (opened : List Text) (name : Text) (names : List Text),
      Delivers (Xml.expandInContent d depth opened name) (names, false) (names, false) := by
  induction depth with
  | zero => exact fun _ _ _ => throw _
  | succ depth ih =>
    intro opened name names
    unfold Xml.expandInContent
    split
    · split
      · exact throw _
      · exact pure _
    · split
      · exact throw _
      · split
        · exact throw _
        · exact pure _
        · refine (adaptExcept _ ?_).bind fun _ => pure _
          exact readContent _ names (ih _) _ [] _

theorem readRoot (scope : Scope) (stop : Nat) (converts : Bool) (d : Doctype)
    (cells : List Cell) :
    Delivers (Xml.readRoot scope stop converts d cells) ([], false) ([], false) :=
  readContent _ [] (expandInContent d d.depth []) _ [] cells

end Delivers

theorem Event.Leads.nested_nil {es : List Event} {p : Site} (h : Event.Leads es p) :
    Event.Nested [] es.reverse := by
  simpa using h.nested [] (.nil p.1)

theorem Body.read_leads (b : Body) : ∃ p, Event.Leads b.read.events.reverse p := by
  unfold Body.read
  simp only
  split
  · exact ⟨_, .nil⟩
  · rename_i doctype root tally _
    have hroot := Delivers.readRoot (.document b.early b.encoding.unit) b.stop b.encoding.converts
      doctype root { tally } .nil
    split
    · rename_i h
      rw [h] at hroot
      rwa [List.reverse_reverse]
    · rename_i h
      rw [h] at hroot
      split <;> exact ⟨_, by rwa [List.reverse_reverse]⟩

theorem readBytes_leads (isText : Bool) (bytes : List UInt8) :
    ∃ p, Event.Leads (readBytes isText bytes).events.reverse p := by
  unfold readBytes
  simp only
  split
  · exact ⟨_, .nil⟩
  · exact Body.read_leads _

theorem Body.read_ending_ne (b : Body) (name : Text) (why : Misfit) :
    b.read.ending ≠ .unusableEncoding name why := by
  unfold Body.read
  simp only
  split
  · nofun
  · split
    · nofun
    · split <;> nofun

theorem Body.open_text_ne (bytes : List UInt8) (e : Encoding) (marked : Bool) (name : Text)
    (why : Misfit) : Body.open true bytes e marked ≠ .error (.unusableEncoding name why) := by
  unfold Body.open
  simp only
  split
  · split
    · split
      · split <;> nofun
      · nofun
    · nofun
  · nofun

theorem readBytes_text_ending_ne (bytes : List UInt8) (name : Text) (why : Misfit) :
    (readBytes true bytes).ending ≠ .unusableEncoding name why := by
  unfold readBytes
  simp only
  split
  · rename_i ending hopened
    rintro rfl
    split at hopened
    · cases hopened
    · cases hopened
    · exact Body.open_text_ne _ _ _ name why hopened
    · exact Body.open_text_ne _ _ _ name why hopened
  · exact Body.read_ending_ne _ name why

end Xml

namespace Document
open Xml

theorem read_leads (d : Document) : ∃ p, Event.Leads d.read.events.reverse p := by
  cases d with
  | text units =>
    unfold read
    simp only
    split
    · exact readBytes_leads _ _
    · exact ⟨_, .nil⟩
  | bytes b => exact readBytes_leads _ _

theorem read_nested (d : Document) : Event.Nested [] d.read.events := by
  obtain ⟨p, hleads⟩ := d.read_leads
  rw [← List.reverse_reverse d.read.events]
  exact hleads.nested_nil

theorem text_ending_ne (units : List TextUnit) (name : Text) (why : Misfit) :
    (text units).read.ending ≠ .unusableEncoding name why := by
  unfold read
  simp only
  split
  · exact readBytes_text_ending_ne _ name why
  · nofun

end Document
end DocMarkdown
