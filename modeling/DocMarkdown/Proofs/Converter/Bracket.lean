import DocMarkdown.Proofs.Converter.Usage
import Mathlib

/-! Captures as brackets. Between the beginning and the end of a capture other captures may begin
and end, and documents may be converted. What the capture hands over follows from what is between,
and nothing around it is changed but for the text that an outer capture receives. -/

namespace DocMarkdown
open Layout Xml Operation

inductive CaptureStep
  | beginCapture (mode : Mode)
  | endCapture
  | convert (units : List TextUnit)

inductive Passage
  | convert (units : List TextUnit)
  | capture (mode : Mode) (content : List Passage)

namespace Passage

mutual

def steps : Passage → List CaptureStep
  | convert units => [.convert units]
  | capture mode content => .beginCapture mode :: stepsOf content ++ [.endCapture]

def stepsOf : List Passage → List CaptureStep
  | [] => []
  | p :: rest => p.steps ++ stepsOf rest

end

mutual

def transcribe (width : Nat) : Passage → Session → Session
  | convert units, s => ((⟨s, [], none⟩ : Stretch).run (Document.text units).read.events).session
  | capture mode content, s => s.write (transcribeAll width content (.new width mode)).captured

def transcribeAll (width : Nat) : List Passage → Session → Session
  | [], s => s
  | p :: rest, s => transcribeAll width rest (p.transcribe width s)

end

@[elab_as_elim]
theorem passageInduction {motive : List Passage → Prop} (nil : motive [])
    (convert : ∀ units rest, motive rest → motive (.convert units :: rest))
    (capture : ∀ mode content rest, motive content → motive rest →
      motive (.capture mode content :: rest)) : ∀ content, motive content
  | [] => nil
  | .convert units :: rest => convert units rest (passageInduction nil convert capture rest)
  | .capture mode content :: rest =>
    capture mode content rest (passageInduction nil convert capture content)
      (passageInduction nil convert capture rest)

end Passage

theorem Passage.mode_transcribeAll (width : Nat) (content : List Passage) (s : Session) :
    (transcribeAll width content s).mode = s.mode := by
  induction content using passageInduction generalizing s with
  | nil => rfl
  | convert units rest ih => exact (ih _).trans (Stretch.mode_run ⟨s, [], none⟩ _)
  | capture mode content rest _ ih => exact ih _

namespace Operation
variable {σ κ : Type}

def take : CaptureStep → Operation σ κ Unit
  | .beginCapture mode => beginCapture mode
  | .endCapture => do
    let _ ← endCapture
  | .convert units => convert none (.text units)

def takeAll : List CaptureStep → Operation σ κ Unit
  | [] => return
  | step :: rest => do
    take step
    takeAll rest

def bracket (mode : Mode) (steps : List CaptureStep) : Operation σ κ Text := do
  beginCapture mode
  takeAll steps
  endCapture

theorem takeAll_cons {step : CaptureStep} {rest : List CaptureStep} {w v : World σ κ}
    (h : take step w = .ok () v) : takeAll (step :: rest) w = takeAll rest v := bind_ok h

end Operation

/-- As far as captures are concerned, only the current session is another one. -/
structure Converter.Resumes {κ : Type} (c : Converter κ) (s : Session) (d : Converter κ) :
    Prop where
  config : d.config = c.config
  capturing : d.capturing = c.capturing
  saved : d.saved = c.saved
  session : d.session = s

theorem Converter.Resumes.trans {κ : Type} {c d u : Converter κ} {s t : Session}
    (h : c.Resumes s d) (h' : d.Resumes t u) : c.Resumes t u where
  config := h'.config.trans h.config
  capturing := h'.capturing.trans h.capturing
  saved := h'.saved.trans h.saved
  session := h'.session

namespace Operation
open Passage
variable {σ κ : Type}

theorem take_convert {c : Converter κ} (hlenient : c.config.strict = false) (x : σ)
    (units : List TextUnit) :
    ∃ d, take (.convert units) ⟨x, c⟩ = .ok () ⟨x, d⟩ ∧
      c.Resumes ((Passage.convert units).transcribe c.config.indentWidth c.session) d := by
  have hconvert := convert_alone x c (.text units)
  rcases Document.verdict_text c.config units with ⟨report, hverdict⟩ | ⟨hstrict, -⟩
  · rw [hverdict] at hconvert
    exact ⟨_, hconvert, rfl, rfl, rfl, rfl⟩
  · rw [hlenient] at hstrict
    cases hstrict

theorem take_endCapture {c d : Converter κ} {mode : Mode} {s : Session} (hcap : c.capturing = true)
    (hd : (c.beginCapture mode).Resumes s d) (x : σ) :
    ∃ u, take .endCapture ⟨x, d⟩ = .ok () ⟨x, u⟩ ∧ c.Resumes (c.session.write s.captured) u := by
  have hsaved : d.saved = c.session :: c.saved := by
    rw [hd.saved, Converter.beginCapture, if_pos hcap]
  refine ⟨d.endCapture.2, bind_ok (endCapture_run _), ?_⟩
  rw [Converter.endCapture_outer hsaved, hd.session]
  exact ⟨hd.config, hd.capturing.trans hcap.symm, rfl, rfl⟩

theorem takeAll_stepsOf (content : List Passage) {c : Converter κ}
    (hlenient : c.config.strict = false) (hcap : c.capturing = true) (x : σ)
    (rest : List CaptureStep) :
    ∃ d, takeAll (stepsOf content ++ rest) ⟨x, c⟩ = takeAll rest ⟨x, d⟩ ∧
      c.Resumes (transcribeAll c.config.indentWidth content c.session) d := by
  induction content using passageInduction generalizing c rest with
  | nil => exact ⟨c, rfl, rfl, rfl, rfl, rfl⟩
  | convert units others ih =>
    obtain ⟨d, hd, hresumes⟩ := take_convert hlenient x units
    obtain ⟨u, hu, hothers⟩ := ih (hresumes.config ▸ hlenient) (hresumes.capturing.trans hcap) rest
    refine ⟨u, ?_, ?_⟩
    · rw [stepsOf, steps, List.append_assoc, List.singleton_append, takeAll_cons hd, hu]
    · rw [hresumes.config, hresumes.session] at hothers
      exact hresumes.trans hothers
  | capture mode content others ihc ih =>
    let within := c.beginCapture mode
    have hbegin : take (.beginCapture mode) ⟨x, c⟩ = .ok () ⟨x, within⟩ := rfl
    obtain ⟨d, hd, hcontent⟩ :=
      ihc (c := within) hlenient rfl (.endCapture :: (stepsOf others ++ rest))
    obtain ⟨u, hend, hresumes⟩ := take_endCapture hcap hcontent x
    obtain ⟨v, hv, hothers⟩ := ih (hresumes.config ▸ hlenient) (hresumes.capturing.trans hcap) rest
    refine ⟨v, ?_, ?_⟩
    · simp only [stepsOf, steps, List.cons_append, List.append_assoc, List.nil_append]
      rw [takeAll_cons hbegin, hd, takeAll_cons hend, hv]
    · rw [hresumes.config, hresumes.session] at hothers
      exact hresumes.trans hothers

end Operation

def Passage.transcript (width : Nat) (mode : Mode) (content : List Passage) : Text :=
  let s := transcribeAll width content (.new width mode)
  match mode with
  | .text => s.text
  | .markdown => Text.trim s.text

theorem Passage.captured_transcribeAll (width : Nat) (mode : Mode) (content : List Passage) :
    (transcribeAll width content (.new width mode)).captured = transcript width mode content := by
  have hmode := mode_transcribeAll width content (.new width mode)
  rw [Session.captured, hmode]
  cases mode <;> rfl

/-- Captures are brackets, whatever has been done with the converter before. The text handed over
follows from what is within. An outer capture goes on as it was and receives the text once; without
one the converter is as if there had been no capture. And at every time the open captures are those
begun and not yet ended, of which all but the outermost have saved the session around them. -/
theorem Converter.bracket_law {κ : Type} {config : Config} {calls : List CaptureCall}
    {c : Converter κ} (hc : c.Reached config calls) :
    (c.saved ≠ [] → c.capturing = true) ∧ c.depth = CaptureCall.depth calls ∧
    (config.strict = false → ∀ (σ : Type) (x : σ) (mode : Mode) (content : List Passage),
      let t := Passage.transcript config.indentWidth mode content
      ∃ d, bracket mode (Passage.stepsOf content) ⟨x, c⟩ = .ok t ⟨x, d⟩ ∧
        if c.capturing then
          d.session = c.session.write t ∧ d.saved = c.saved ∧ d.capturing = true
        else
          d.session = .new config.indentWidth .markdown ∧ d.saved = [] ∧ d.capturing = false) := by
  have htallied := hc.tallied
  refine ⟨fun hsaved => ?_, htallied.depth, fun hlenient σ x mode content => ?_⟩
  · exact Bool.of_not_eq_false fun hcapturing => hsaved (htallied.bare hcapturing)
  obtain ⟨d, hd, hwithin⟩ := takeAll_stepsOf (c := c.beginCapture mode) content
    (htallied.config ▸ hlenient) rfl x []
  have hlast : d.session.captured = Passage.transcript config.indentWidth mode content := by
    rw [← htallied.config, ← Passage.captured_transcribeAll, hwithin.session]
    rfl
  have hbracket : bracket mode (Passage.stepsOf content) ⟨x, c⟩ =
      .ok (Passage.transcript config.indentWidth mode content) ⟨x, d.endCapture.2⟩ := by
    rw [List.append_nil] at hd
    change (takeAll (Passage.stepsOf content) >>= fun _ => Operation.endCapture)
      ⟨x, c.beginCapture mode⟩ = _
    rw [bind_ok hd, endCapture_run, hlast]
  refine ⟨d.endCapture.2, hbracket, ?_⟩
  cases hcapturing : c.capturing with
  | true =>
    have hsaved : d.saved = c.session :: c.saved := by
      rw [hwithin.saved, Converter.beginCapture, if_pos hcapturing]
    rw [Converter.endCapture_outer hsaved, hlast]
    exact ⟨rfl, rfl, hwithin.capturing⟩
  | false =>
    have hsaved : d.saved = [] := by
      rw [hwithin.saved, Converter.beginCapture, hcapturing]
      exact htallied.bare hcapturing
    rw [Converter.endCapture_last hsaved]
    refine ⟨?_, hsaved, rfl⟩
    rw [Converter.fresh, hwithin.config, ← htallied.config]
    rfl

private def cutPara : List TextUnit := "<Para>a_b</Para><".toList.map .scalar

set_option maxRecDepth 2000 in
private theorem cutPara_read : (Document.text cutPara).read =
    ⟨[.openElement "Para".toList [], .characters "a_b".toList, .closeElement "Para".toList],
      .malformed .unclosedToken ⟨1, 16⟩⟩ := by cbv

theorem Converter.bracket_inCapture :
    let c : Converter Empty := (Converter.new {}).beginCapture .markdown
    c.Reached {} [.begun] ∧ ({} : Config).strict = false ∧
    ∃ d, bracket .markdown [.beginCapture .text, .convert cutPara, .endCapture] ⟨(), c⟩ =
        .ok "a_b".toList ⟨(), d⟩ ∧
      d.session = c.session.write "a_b".toList ∧ d.saved = [] ∧ d.capturing = true := by
  intro c
  have hreached : c.Reached {} [.begun] :=
    ⟨Unit, Unit, _, (), (), c, .beginCapture .markdown, rfl, .inl rfl⟩
  have htranscript : Passage.transcript 4 .markdown [.capture .text [.convert cutPara]] =
      "a_b".toList := by
    simp only [Passage.transcript, Passage.transcribeAll, Passage.transcribe, cutPara_read]
    decide
  have hlaw := (Converter.bracket_law hreached).2.2 rfl Unit () .markdown
    [.capture .text [.convert cutPara]]
  rw [show ({} : Config).indentWidth = 4 from rfl, htranscript] at hlaw
  exact ⟨hreached, rfl, hlaw⟩

end DocMarkdown
