import DocMarkdown.Converter.Run
import DocMarkdown.Proofs.Outcome

/-! What a single event does to a world, and how the events of a list follow each other.
Each statement is about one branch of the handlers, so that later proofs need not open them. -/

namespace DocMarkdown.Operation
open Layout Xml

variable {σ κ : Type} {client : Option (Client σ κ)} {w w' : World σ κ}

section Sequence
variable {α β : Type} {x : Operation σ κ α} {f : α → Operation σ κ β}

theorem bind_ok {a : α} (h : x w = .ok a w') : (x >>= f) w = f a w' :=
  EStateM.bind_of_ok h f

theorem bind_error {stop : Stop} (h : x w = .error stop w') :
    (x >>= f) w = .error stop w' :=
  EStateM.bind_of_error h f

theorem get_run : (get : Operation σ κ (World σ κ)) w = .ok w w := rfl

end Sequence

theorem feed_cons {e : Event} {rest : List Event} (h : handle client e w = .ok () w') :
    feed client (e :: rest) w = feed client rest w' := bind_ok h

theorem feed_cons_error {e : Event} {rest : List Event} {stop : Stop}
    (h : handle client e w = .error stop w') :
    feed client (e :: rest) w = .error stop w' := bind_error h

theorem feed_append {es fs : List Event} (h : feed client es w = .ok () w') :
    feed client (es ++ fs) w = feed client fs w' := by
  induction es generalizing w with
  | nil =>
    cases h
    rfl
  | cons e es ih =>
    cases he : handle client e w with
    | ok u v =>
      rw [feed_cons he] at h
      rw [List.cons_append, feed_cons he]
      exact ih h
    | error stop v =>
      rw [feed_cons_error he] at h
      cases h

theorem handle_openLayout {name : Text} {e : Element} (attributes : Attributes)
    (h : Element.ofTag? name = some e) :
    handle client (.openElement name attributes) w =
      .ok () { w with converter := w.converter.openLayout e attributes } := by
  simp only [handle, h]
  rfl

theorem handle_openIgnored {name : Text} (attributes : Attributes)
    (h : Element.ofTag? name = none) (hc : client = none ∨ w.converter.listening = false) :
    handle client (.openElement name attributes) w =
      .ok () { w with converter := w.converter.push .nothing } := by
  simp only [handle, h, openOther]
  rw [bind_ok get_run]
  rcases hc with rfl | hl
  · rfl
  · rw [hl]
    cases client <;> rfl

def left : Option κ → Pending κ
  | some k => .client k
  | none => .nothing

theorem handle_openOffered {client : Client σ κ} {name : Text} {attributes : Attributes}
    {k : Option κ} (h : Element.ofTag? name = none) (hl : w.converter.listening = true)
    (ho : client.opening name attributes w = .ok k w') :
    handle (some client) (.openElement name attributes) w =
      .ok () { w' with converter := w'.converter.push (left k) } := by
  simp only [handle, h, openOther]
  rw [bind_ok get_run, hl]
  change (client.opening name attributes >>= _) w = _
  rw [bind_ok ho]
  cases k <;> rfl

theorem handle_closeEmpty (name : Text) (h : w.converter.pending = []) :
    handle client (.closeElement name) w = .error .emptyPop w := by
  simp only [handle]
  rw [bind_ok get_run, h]
  rfl

theorem handle_close {p : Pending κ} {pending : List (Pending κ)} (name : Text)
    (h : w.converter.pending = p :: pending) :
    handle client (.closeElement name) w =
      close client p { w with converter := { w.converter with pending } } := by
  simp only [handle]
  rw [bind_ok get_run, h]
  rfl

theorem close_layout {a : Action} (h : w.converter.session.permits a = true) :
    close client (.layout a) w =
      .ok ()
        { w with converter := { w.converter with session := w.converter.session.close a } } := by
  simp only [close]
  rw [bind_ok get_run, h]
  rfl

theorem close_layout_refused {a : Action} (h : w.converter.session.permits a = false) :
    close client (.layout a) w = .error .emptyPop
      { w with converter := { w.converter with session := w.converter.session.close a } } := by
  simp only [close]
  rw [bind_ok get_run, h]
  rfl

theorem handle_characters (t : Text) :
    handle client (.characters t) w = .ok () { w with converter := w.converter.characters t } := rfl

theorem handle_openRaw :
    handle client .openRaw w = .ok () { w with converter := w.converter.openRaw } := rfl

theorem handle_closeRaw :
    handle client .closeRaw w = .ok () { w with converter := w.converter.closeRaw } := rfl

theorem conclude_ends (d : Document) (e : Ending) (w : World σ κ) :
    (∃ c, conclude d e w = .ok () ⟨w.client, c⟩) ∨
    (∃ m, conclude d e w = .error (.malformed m) w ∧ w.converter.config.strict = true) ∨
    ∃ name why, e = .unusableEncoding name why ∧
      conclude d e w = .error (.unusableEncoding name why) w := by
  cases e with
  | complete => exact .inl ⟨w.converter, rfl⟩
  | malformed reason place =>
    simp only [conclude]
    rw [bind_ok get_run]
    cases w.converter.config.strict with
    | true => exact .inr (.inl ⟨_, rfl, rfl⟩)
    | false => exact .inl ⟨_, rfl⟩
  | unusableEncoding name why => exact .inr (.inr ⟨name, why, rfl, rfl⟩)

theorem convert_complete {d : Document} {v : World σ κ}
    (hf : feed client d.read.events ⟨w.client, w.converter.start client.isSome⟩ = .ok () v)
    (he : d.read.ending = .complete) :
    convert client d w = .ok () { v with converter := v.converter.finish } := by
  have hnext : (do feed client d.read.events; conclude d d.read.ending : Operation σ κ Unit)
      ⟨w.client, w.converter.start client.isSome⟩ = .ok () v := by
    rw [bind_ok hf, he]
    rfl
  simp only [convert, deliver, hnext]

theorem convert_stopped {d : Document} {v : World σ κ} {stop : Stop} (hstop : stop ≠ .aborted)
    (hf : feed client d.read.events ⟨w.client, w.converter.start client.isSome⟩ = .error stop v) :
    convert client d w = .error stop { v with converter := v.converter.finish } := by
  have hnext : (do feed client d.read.events; conclude d d.read.ending : Operation σ κ Unit)
      ⟨w.client, w.converter.start client.isSome⟩ = .error stop v := bind_error hf
  simp only [convert, deliver, hnext]

end DocMarkdown.Operation
