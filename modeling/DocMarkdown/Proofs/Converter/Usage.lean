import DocMarkdown.Proofs.Converter.Conversion

/-! What can be done with a converter at all. Programs use it by its own operations: they begin
and end captures, reset it, abort, and convert documents with clients whose handlers are such
programs again. Between the operations they do what they like, and they may go on after an
operation has stopped. A record is kept of all they do to captures. -/

namespace DocMarkdown
open Layout Xml

inductive CaptureCall
  | begun
  | ended
  | reset
  deriving DecidableEq

namespace CaptureCall

def depth : List CaptureCall → Nat
  | [] => 0
  | .begun :: earlier => depth earlier + 1
  | .ended :: earlier => depth earlier - 1
  | .reset :: _ => 0

end CaptureCall

def Converter.depth {κ : Type} (c : Converter κ) : Nat :=
  (if c.capturing then 1 else 0) + c.saved.length

namespace Operation
variable {σ κ α β : Type}

abbrev Recorded (σ κ : Type) := Operation (σ × List CaptureCall) κ

def record (call : CaptureCall) : Recorded σ κ Unit :=
  modify fun w => { w with client := (w.client.1, call :: w.client.2) }

/-- The program uses the converter by its own operations only, and all calls are recorded. -/
inductive Uses : {α : Type} → Recorded σ κ α → Prop
  | pure {α : Type} (a : α) : Uses (pure a)
  | bind {α β : Type} {p : Recorded σ κ α} {f : α → Recorded σ κ β} (hp : Uses p)
      (hf : ∀ a, Uses (f a)) : Uses (p >>= f)
  | throw {α : Type} (stop : Stop) : Uses (throw stop : Recorded σ κ α)
  | tryCatch {α : Type} {p : Recorded σ κ α} {f : Stop → Recorded σ κ α} (hp : Uses p)
      (hf : ∀ stop, Uses (f stop)) : Uses (tryCatch p f)
  | get : Uses get
  | own (f : World (σ × List CaptureCall) κ → σ) :
      Uses (modify fun w => { w with client := (f w, w.client.2) })
  | beginCapture (mode : Mode) : Uses (record .begun >>= fun _ => beginCapture mode)
  | endCapture : Uses (record .ended >>= fun _ => endCapture)
  | reset : Uses (record .reset >>= fun _ => reset)
  | convert {client : Client (σ × List CaptureCall) κ} (d : Document)
      (hopening : ∀ name attributes, Uses (client.opening name attributes))
      (hclosing : ∀ k, Uses (client.closing k)) : Uses (convert (some client) d)
  | convertAlone (d : Document) : Uses (convert none d)

theorem Uses.abort : Uses (abort : Recorded σ κ Unit) := by
  refine .bind .get fun w => ?_
  cases w.converter.running with
  | true => exact .throw .aborted
  | false => exact .pure ()

def final : EStateM.Result Stop (World σ κ) α → World σ κ
  | .ok _ w => w
  | .error _ w => w

def Keeps (P : World σ κ → Prop) (p : Operation σ κ α) : Prop := ∀ w, P w → P (final (p w))

namespace Keeps
variable {P : World σ κ → Prop} {p : Operation σ κ α}

theorem pure (a : α) : Keeps P (Pure.pure a : Operation σ κ α) := fun _ h => h

theorem throw (stop : Stop) : Keeps P (MonadExcept.throw stop : Operation σ κ α) := fun _ h => h

theorem get : Keeps P (MonadState.get : Operation σ κ (World σ κ)) := fun _ h => h

theorem modify {f : World σ κ → World σ κ} (hf : ∀ w, P w → P (f w)) :
    Keeps P (modify f : Operation σ κ Unit) := hf

theorem bind {f : α → Operation σ κ β} (hp : Keeps P p) (hf : ∀ a, Keeps P (f a)) :
    Keeps P (p >>= f) := by
  intro w hw
  have hfirst := hp w hw
  cases hr : p w with
  | ok a v =>
    rw [bind_ok hr]
    rw [hr] at hfirst
    exact hf a v hfirst
  | error stop v =>
    rw [bind_error hr]
    rw [hr] at hfirst
    exact hfirst

theorem tryCatch {f : Stop → Operation σ κ α} (hp : Keeps P p) (hf : ∀ stop, Keeps P (f stop)) :
    Keeps P (tryCatch p f) := by
  intro w hw
  have hfirst := hp w hw
  change P (final (EStateM.tryCatch p f w))
  cases hr : p w with
  | ok a v =>
    rw [hr] at hfirst
    simp only [EStateM.tryCatch, hr]
    exact hfirst
  | error stop v =>
    rw [hr] at hfirst
    simp only [EStateM.tryCatch, hr]
    exact hf stop v hfirst

end Keeps

def OfCaptures (P : World σ κ → Prop) : Prop :=
  ∀ (x : σ) (c d : Converter κ), d.config = c.config → d.saved = c.saved →
    d.capturing = c.capturing → P ⟨x, c⟩ → P ⟨x, d⟩

section Conversion
variable {P : World σ κ → Prop} {client : Option (Client σ κ)} {f : Converter κ → Converter κ}

theorem OfCaptures.change (hP : OfCaptures P) (hconfig : ∀ c, (f c).config = c.config)
    (hsaved : ∀ c, (f c).saved = c.saved) (hcapturing : ∀ c, (f c).capturing = c.capturing) :
    Keeps P (change f : Operation σ κ Unit) := fun w hw =>
  hP w.client w.converter (f w.converter) (hconfig _) (hsaved _) (hcapturing _) hw

theorem OfCaptures.push (hP : OfCaptures P) (p : Pending κ) :
    Keeps P (Operation.change (.push p) : Operation σ κ Unit) :=
  hP.change (fun _ => rfl) (fun _ => rfl) fun _ => rfl

def Minds (P : World σ κ → Prop) (client : Option (Client σ κ)) : Prop :=
  ∀ c, client = some c →
    (∀ name attributes, Keeps P (c.opening name attributes)) ∧ ∀ k, Keeps P (c.closing k)

theorem Keeps.close (hP : OfCaptures P) (hclient : Minds P client) (p : Pending κ) :
    Keeps P (close client p) := by
  cases p with
  | nothing => exact .pure ()
  | layout a =>
    refine .bind .get fun w => ?_
    refine .bind (hP.change (fun _ => rfl) (fun _ => rfl) fun _ => rfl) fun _ => ?_
    cases w.converter.session.permits a with
    | true => exact .pure ()
    | false => exact .throw .emptyPop
  | client k =>
    cases client with
    | none => exact .pure ()
    | some c => exact (hclient c rfl).2 k

theorem Keeps.openOther (hP : OfCaptures P) (hclient : Minds P client) (name : Text)
    (attributes : Attributes) : Keeps P (openOther client name attributes) := by
  refine .bind .get fun w => ?_
  cases client with
  | none => exact hP.push .nothing
  | some c =>
    cases w.converter.listening with
    | false => exact hP.push .nothing
    | true =>
      refine .bind ((hclient c rfl).1 name attributes) fun k => ?_
      cases k with
      | none => exact hP.push .nothing
      | some k => exact hP.push (.client k)

theorem Keeps.handle (hP : OfCaptures P) (hclient : Minds P client) (e : Event) :
    Keeps P (handle client e) := by
  cases e with
  | openElement name attributes =>
    cases he : Element.ofTag? name with
    | some e =>
      simp only [Operation.handle, he]
      exact hP.change (fun _ => rfl) (fun _ => rfl) fun _ => rfl
    | none =>
      simp only [Operation.handle, he]
      exact .openOther hP hclient name attributes
  | closeElement name =>
    refine .bind .get fun w => ?_
    cases w.converter.pending with
    | nil => exact .throw .emptyPop
    | cons p pending =>
      exact .bind (hP.change (fun _ => rfl) (fun _ => rfl) fun _ => rfl)
        fun _ => .close hP hclient p
  | characters t =>
    refine hP.change (fun c => ?_) (fun c => ?_) fun c => ?_
    all_goals
      unfold Converter.characters
      cases c.raw <;> rfl
  | openRaw => exact hP.change (fun _ => rfl) (fun _ => rfl) fun _ => rfl
  | closeRaw => exact hP.change (fun _ => rfl) (fun _ => rfl) fun _ => rfl

theorem Keeps.feed (hP : OfCaptures P) (hclient : Minds P client) (es : List Event) :
    Keeps P (feed client es) := by
  induction es with
  | nil => exact .pure ()
  | cons e rest ih => exact .bind (.handle hP hclient e) fun _ => ih

theorem Keeps.conclude (hP : OfCaptures P) (d : Document) (e : Ending) :
    Keeps P (conclude d e : Operation σ κ Unit) := by
  cases e with
  | complete => exact .pure ()
  | malformed reason place =>
    refine .bind .get fun w => ?_
    let report (c : Converter κ) : Converter κ :=
      { c with reports := Malformed.ofReading reason place d :: c.reports }
    have hreport : Keeps P (Operation.change report : Operation σ κ Unit) :=
      hP.change (fun _ => rfl) (fun _ => rfl) fun _ => rfl
    cases hs : w.converter.config.strict with
    | true =>
      simp only [if_true]
      exact .bind (.throw _) fun _ => hreport
    | false =>
      simp only [Bool.false_eq_true, if_false]
      exact hreport
  | unusableEncoding name why => exact .throw _

theorem Keeps.convert (hP : OfCaptures P) (hclient : Minds P client) (d : Document) :
    Keeps P (convert client d) := by
  intro w hw
  have hbegun : P ⟨w.client, w.converter.start client.isSome⟩ :=
    hP w.client w.converter _ rfl rfl rfl hw
  have hrun := Keeps.bind (.feed hP hclient d.read.events) (fun _ => .conclude hP d d.read.ending)
    _ hbegun
  have hsettled : ∀ v : World σ κ, P v → P { v with converter := v.converter.finish } := fun v hv =>
    hP v.client v.converter _ rfl rfl rfl hv
  simp only [Operation.convert, deliver]
  cases hr : (do Operation.feed client d.read.events; Operation.conclude d d.read.ending :
      Operation σ κ Unit) ⟨w.client, w.converter.start client.isSome⟩ with
  | ok _ v =>
    rw [hr] at hrun
    exact hsettled v hrun
  | error stop v =>
    rw [hr] at hrun
    cases stop <;> exact hsettled v hrun

end Conversion

theorem Uses.keeps {P : World (σ × List CaptureCall) κ → Prop} (hP : OfCaptures P)
    (hown : ∀ w (y : σ), P w → P { w with client := (y, w.client.2) })
    (hbegin : ∀ mode, Keeps P (record .begun >>= fun _ => Operation.beginCapture mode))
    (hend : Keeps P (record .ended >>= fun _ => Operation.endCapture))
    (hreset : Keeps P (record .reset >>= fun _ => Operation.reset)) {p : Recorded σ κ α}
    (h : Uses p) : Keeps P p := by
  induction h with
  | pure a => exact .pure a
  | bind _ _ ihp ihf => exact .bind ihp ihf
  | throw stop => exact .throw stop
  | tryCatch _ _ ihp ihf => exact .tryCatch ihp ihf
  | get => exact .get
  | own f => exact .modify fun w hw => hown w (f w) hw
  | beginCapture mode => exact hbegin mode
  | endCapture => exact hend
  | reset => exact hreset
  | @convert client d _ _ ihopening ihclosing =>
    refine .convert hP (fun c hc => ?_) d
    cases hc
    exact ⟨ihopening, ihclosing⟩
  | convertAlone d => exact .convert hP (fun c hc => by cases hc) d

end Operation

/-- Sessions are saved only while a capture is active, and the depth of the captures is as the
calls have it. -/
structure Converter.Tallied {κ : Type} (config : Config) (calls : List CaptureCall)
    (c : Converter κ) : Prop where
  config : c.config = config
  bare : c.capturing = false → c.saved = []
  depth : c.depth = CaptureCall.depth calls

namespace Converter.Tallied
variable {κ : Type} {config : Config} {calls : List CaptureCall} {c d : Converter κ}

theorem of_eq (h : c.Tallied config calls) (hconfig : d.config = c.config)
    (hsaved : d.saved = c.saved) (hcapturing : d.capturing = c.capturing) :
    d.Tallied config calls := by
  refine ⟨hconfig.trans h.config, ?_, ?_⟩
  · rw [hcapturing, hsaved]
    exact h.bare
  · rw [← h.depth, Converter.depth, Converter.depth, hcapturing, hsaved]

theorem new (config : Config) : (Converter.new config : Converter κ).Tallied config [] :=
  ⟨rfl, fun _ => rfl, rfl⟩

theorem beginCapture (h : c.Tallied config calls) (mode : Mode) :
    (c.beginCapture mode).Tallied config (.begun :: calls) := by
  refine ⟨h.config, nofun, ?_⟩
  rw [CaptureCall.depth, ← h.depth]
  cases hcapturing : c.capturing with
  | true => simp [Converter.depth, Converter.beginCapture, hcapturing, Nat.add_assoc]
  | false => simp [Converter.depth, Converter.beginCapture, hcapturing, h.bare hcapturing]

theorem endCapture (h : c.Tallied config calls) :
    c.endCapture.2.Tallied config (.ended :: calls) := by
  cases hsaved : c.saved with
  | nil =>
    rw [Converter.endCapture_last hsaved]
    refine ⟨h.config, fun _ => hsaved, ?_⟩
    have hdepth : c.depth ≤ 1 := by
      rw [Converter.depth, hsaved, List.length_nil]
      split <;> omega
    rw [CaptureCall.depth, ← h.depth]
    simp only [Converter.depth, Bool.false_eq_true, if_false, hsaved, List.length_nil] at hdepth ⊢
    omega
  | cons outer saved =>
    rw [Converter.endCapture_outer hsaved]
    have hcapturing : c.capturing = true := by
      cases hcapturing : c.capturing with
      | true => rfl
      | false =>
        rw [h.bare hcapturing] at hsaved
        cases hsaved
    refine ⟨h.config, fun hc => absurd (hcapturing.symm.trans hc) nofun, ?_⟩
    rw [CaptureCall.depth, ← h.depth]
    simp [Converter.depth, hcapturing, hsaved, Nat.add_comm]

theorem reset (h : c.Tallied config calls) : c.reset.Tallied config (.reset :: calls) :=
  ⟨h.config, fun _ => rfl, rfl⟩

end Converter.Tallied

namespace Converter
open Operation

/-- A program that has made these calls brings the converter to this state, from a new one: at its
end, or while a conversion goes on that it stops here. -/
def Reached {κ : Type} (config : Config) (calls : List CaptureCall) (c : Converter κ) : Prop :=
  ∃ (σ α : Type) (p : Recorded σ κ α) (x y : σ) (d : Converter κ), Uses p ∧
    final (p ⟨(x, []), .new config⟩) = ⟨(y, calls), d⟩ ∧ (d = c ∨ d = c.finish)

theorem Reached.tallied {κ : Type} {config : Config} {calls : List CaptureCall} {c : Converter κ}
    (h : c.Reached config calls) : c.Tallied config calls := by
  obtain ⟨σ, α, p, x, y, d, hp, hfinal, hd⟩ := h
  let P : World (σ × List CaptureCall) κ → Prop := fun w => w.converter.Tallied config w.client.2
  have hP : OfCaptures P := fun _ _ _ hconfig hsaved hcapturing hw =>
    hw.of_eq hconfig hsaved hcapturing
  have hkeeps : Keeps P p := hp.keeps hP (fun _ _ hw => hw)
    (fun mode _ hw => Tallied.beginCapture hw mode) (fun _ hw => Tallied.endCapture hw)
    (fun _ hw => Tallied.reset hw)
  have hend : P (final (p ⟨(x, []), .new config⟩)) := hkeeps _ (Tallied.new config)
  rw [hfinal] at hend
  rcases hd with rfl | rfl
  · exact hend
  · exact hend.of_eq rfl rfl rfl

end Converter
end DocMarkdown
