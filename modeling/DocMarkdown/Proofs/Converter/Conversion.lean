import DocMarkdown.Proofs.Converter.Stretch

/-! What a whole conversion comes to, once its events have been delivered or a handler has stopped
them, and what is seen of it from outside: its result, and what has been reported. -/

namespace DocMarkdown
open Layout Xml

variable {σ κ α β : Type} {client : Option (Client σ κ)} {d : Document} {w v : World σ κ}

/-- What a conversion stops for after all events have been delivered, and what it reports. -/
def Document.verdict (config : Config) (d : Document) : Except Stop Unit × Option Malformed :=
  match d.read.ending with
  | .complete => (.ok (), none)
  | .malformed reason place =>
    let m := Malformed.ofReading reason place d
    if config.strict then (.error (.malformed m), none) else (.ok (), some m)
  | .unusableEncoding name why => (.error (.unusableEncoding name why), none)

theorem Document.verdict_text (config : Config) (units : List TextUnit) :
    (∃ report, (Document.text units).verdict config = (.ok (), report)) ∨
    config.strict = true ∧
      ∃ m, (Document.text units).verdict config = (.error (.malformed m), none) := by
  unfold verdict
  cases he : (Document.text units).read.ending with
  | complete => exact .inl ⟨none, rfl⟩
  | malformed reason place =>
    cases hstrict : config.strict with
    | true => exact .inr ⟨rfl, _, rfl⟩
    | false => exact .inl ⟨_, rfl⟩
  | unusableEncoding name why => exact absurd he (Document.text_ending_ne units name why)

def World.settled (report : Option Malformed) (w : World σ κ) : World σ κ :=
  { w with converter :=
    { w.converter.finish with reports := report.toList ++ w.converter.reports } }

theorem World.settled_reports (report : Option Malformed) (w : World σ κ) :
    (w.settled report).converter.reports.reverse =
      w.converter.reports.reverse ++ report.toList := by
  cases report <;> simp [settled, Converter.finish]

namespace Converter

theorem endCapture_reports (c : Converter κ) : c.endCapture.2.reports = c.reports := by
  unfold endCapture
  cases c.saved <;> rfl

theorem endCapture_fst (c : Converter κ) : c.endCapture.1 = c.session.captured := by
  unfold endCapture
  cases c.saved <;> rfl

theorem endCapture_outer {c : Converter κ} {outer : Session} {saved : List Session}
    (h : c.saved = outer :: saved) :
    c.endCapture.2 = { c with session := outer.write c.session.captured, saved } := by
  simp only [endCapture, h]

theorem endCapture_last {c : Converter κ} (h : c.saved = []) :
    c.endCapture.2 = { c with session := c.fresh .markdown, capturing := false } := by
  simp only [endCapture, h]

end Converter

namespace Operation

theorem feed_cons_ok {e : Event} {rest : List Event} (h : feed client (e :: rest) w = .ok () v) :
    ∃ u, handle client e w = .ok () u ∧ feed client rest u = .ok () v := by
  cases he : handle client e w with
  | ok _ u => exact ⟨u, rfl, (feed_cons he).symm.trans h⟩
  | error stop u =>
    rw [feed_cons_error he] at h
    cases h

theorem convert_delivered
    (hf : feed client d.read.events ⟨w.client, w.converter.start client.isSome⟩ = .ok () v) :
    convert client d w =
      match d.verdict v.converter.config with
      | (.ok (), report) => .ok () (v.settled report)
      | (.error stop, report) => .error stop (v.settled report) := by
  have hnext : (do feed client d.read.events; conclude d d.read.ending : Operation σ κ Unit)
      ⟨w.client, w.converter.start client.isSome⟩ = conclude d d.read.ending v := bind_ok hf
  simp only [convert, deliver, hnext, Document.verdict]
  cases d.read.ending with
  | complete => rfl
  | malformed reason place =>
    simp only [conclude]
    rw [bind_ok get_run]
    cases v.converter.config.strict <;> rfl
  | unusableEncoding name why => rfl

theorem convert_aborted
    (hf : feed client d.read.events ⟨w.client, w.converter.start client.isSome⟩ =
      .error .aborted v) :
    convert client d w = .ok () (v.settled none) := by
  have hnext : (do feed client d.read.events; conclude d d.read.ending : Operation σ κ Unit)
      ⟨w.client, w.converter.start client.isSome⟩ = .error .aborted v := bind_error hf
  simp only [convert, deliver, hnext]
  rfl

def seen (view : α → σ → β) (r : EStateM.Result Stop (World σ κ) α) :
    Except Stop β × List Malformed :=
  match r with
  | .ok a w => (.ok (view a w.client), w.converter.reports.reverse)
  | .error stop w => (.error stop, w.converter.reports.reverse)

theorem seen_delivered (view : Unit → σ → β)
    (hf : feed client d.read.events ⟨w.client, w.converter.start client.isSome⟩ = .ok () v) :
    seen view (convert client d w) =
      ((d.verdict v.converter.config).1.map (view · v.client),
        v.converter.reports.reverse ++ (d.verdict v.converter.config).2.toList) := by
  rw [convert_delivered hf]
  obtain ⟨_ | _, report⟩ := d.verdict v.converter.config
  · simp only [seen, World.settled_reports]
    rfl
  · simp only [seen, World.settled_reports]
    rfl

theorem seen_aborted (view : Unit → σ → β)
    (hf : feed client d.read.events ⟨w.client, w.converter.start client.isSome⟩ =
      .error .aborted v) :
    seen view (convert client d w) =
      (.ok (view () v.client), v.converter.reports.reverse) := by
  rw [convert_aborted hf]
  rfl

theorem convert_alone (x : σ) (c : Converter κ) (d : Document) :
    let v : World σ κ := ⟨x, Stretch.on (c.start false) []
      ((⟨c.session, [], none⟩ : Stretch).run d.read.events)⟩
    convert none d ⟨x, c⟩ =
      match d.verdict c.config with
      | (.ok (), report) => .ok () (v.settled report)
      | (.error stop, report) => .error stop (v.settled report) := by
  have hpasses : ∀ name (attributes : Attributes),
      Event.openElement name attributes ∈ d.read.events →
      Passes (none : Option (Client σ κ)) false x name :=
    fun _ _ _ _ => .inl rfl
  have hfeed := feed_stretch (s := ⟨c.session, [], none⟩) (c := c.start false) [] d.read_nested rfl
    (Stretch.sound_new c.session none) hpasses
  exact convert_delivered (w := ⟨x, c⟩) hfeed

end Operation

def Document.markdown (config : Config) (d : Document) : Text :=
  ((⟨.new config.indentWidth .markdown, [], none⟩ : Stretch).run d.read.events).session.captured

namespace Operation

theorem endCapture_run (w : World σ κ) :
    endCapture w =
      .ok w.converter.session.captured { w with converter := w.converter.endCapture.2 } := by
  rw [← w.converter.endCapture_fst]
  rfl

theorem toMarkdown_verdict (x : σ) (c : Converter κ) (d : Document) :
    ∃ v : World σ κ,
      v.converter.reports = (d.verdict c.config).2.toList ++ c.reports ∧
      match (d.verdict c.config).1 with
      | .ok () => toMarkdown none d ⟨x, c⟩ = .ok (d.markdown c.config) v
      | .error stop => toMarkdown none d ⟨x, c⟩ = .error stop v ∧
          v.converter.capturing = true ∧ v.converter.session.captured = d.markdown c.config := by
  let begun : Converter κ := c.reset.beginCapture .markdown
  have hconvert := convert_alone x begun d
  have hstart : toMarkdown none d ⟨x, c⟩ =
      (convert none d >>= fun _ => endCapture) ⟨x, begun⟩ := rfl
  cases hverdict : d.verdict c.config with
  | mk result report =>
    have hbegun : d.verdict begun.config = (result, report) := hverdict
    rw [hbegun] at hconvert
    cases result with
    | error stop => exact ⟨_, rfl, hstart.trans (bind_error hconvert), rfl, rfl⟩
    | ok _ =>
      refine ⟨_, ?_, hstart.trans ((bind_ok hconvert).trans (endCapture_run _))⟩
      exact Converter.endCapture_reports _

theorem seen_toMarkdown (x : σ) (c : Converter κ) (d : Document) :
    seen (fun t _ => t) (toMarkdown none d ⟨x, c⟩) =
      ((d.verdict c.config).1.map fun _ => d.markdown c.config,
        c.reports.reverse ++ (d.verdict c.config).2.toList) := by
  obtain ⟨v, hreports, hresult⟩ := toMarkdown_verdict x c d
  have hreversed : v.converter.reports.reverse =
      c.reports.reverse ++ (d.verdict c.config).2.toList := by
    rw [hreports, List.reverse_append]
    cases (d.verdict c.config).2 <;> rfl
  cases hverdict : (d.verdict c.config).1 with
  | error stop =>
    rw [hverdict] at hresult
    rw [hresult.1]
    exact congrArg (Prod.mk _) hreversed
  | ok _ =>
    rw [hverdict] at hresult
    rw [hresult]
    exact congrArg (Prod.mk _) hreversed

end Operation

theorem Converter.markdown_alone (config : Config) (d : Document) :
    markdown config d =
      ((d.verdict config).1.map fun _ => d.markdown config, (d.verdict config).2.toList) := by
  have hseen : markdown config d = Operation.seen (fun t _ => t)
      ((Operation.toMarkdown none d : Plain Text) ⟨(), .new config⟩) := by
    unfold markdown
    cases (Operation.toMarkdown none d : Plain Text) ⟨(), .new config⟩ <;> rfl
  rw [hseen, Operation.seen_toMarkdown]
  rfl

theorem Pending.ofAction_ne_client (action : Option Action) (k : κ) :
    Pending.ofAction action ≠ .client k := by
  cases action <;> nofun

structure Circumstances where
  config : Config
  running : Bool
  listening : Bool
  reports : List Malformed

namespace Converter

def circumstances (c : Converter κ) : Circumstances :=
  ⟨c.config, c.running, c.listening, c.reports⟩

variable (mode : Option Mode) (c : Converter κ)

theorem enter_keeps : (c.enter mode).circumstances = c.circumstances ∧ (c.enter mode).raw = c.raw ∧
    (c.enter mode).pending = c.pending := by
  cases mode <;> exact ⟨rfl, rfl, rfl⟩

theorem leave_keeps : (c.leave mode).circumstances = c.circumstances ∧ (c.leave mode).raw = c.raw ∧
    (c.leave mode).pending = c.pending := by
  cases mode with
  | none => exact ⟨rfl, rfl, rfl⟩
  | some mode =>
    rw [leave]
    cases hs : c.saved with
    | nil =>
      rw [endCapture_last hs]
      exact ⟨rfl, rfl, rfl⟩
    | cons outer saved =>
      rw [endCapture_outer hs]
      exact ⟨rfl, rfl, rfl⟩

end Converter

namespace Operation
variable {client : Client σ κ} {h : Habit σ κ}

theorem close_keeps (hf : client.Follows h) {p : Pending κ}
    (hw : close (some client) p w = .ok () v) :
    v.converter.circumstances = w.converter.circumstances ∧ v.converter.raw = w.converter.raw ∧
    v.converter.pending = w.converter.pending ∧
    (v.client = w.client ∨ ∃ k t, p = .client k ∧ v.client = h.closing k t w) := by
  cases p with
  | nothing =>
    cases hw
    exact ⟨rfl, rfl, rfl, .inl rfl⟩
  | layout a =>
    cases ha : w.converter.session.permits a with
    | false =>
      rw [close_layout_refused ha] at hw
      cases hw
    | true =>
      rw [close_layout ha] at hw
      cases hw
      exact ⟨rfl, rfl, rfl, .inl rfl⟩
  | client k =>
    change client.closing k w = _ at hw
    rw [hf.closing] at hw
    cases hw
    obtain ⟨hcircumstances, hraw, hpending⟩ := w.converter.leave_keeps (h.mode k)
    exact ⟨hcircumstances, hraw, hpending, .inr ⟨k, _, rfl, rfl⟩⟩

theorem handle_keeps (hf : client.Follows h) {e : Event}
    (hw : handle (some client) e w = .ok () v) :
    v.converter.circumstances = w.converter.circumstances ∧
      v.converter.raw = e.rawAfter w.converter.raw := by
  cases e with
  | openElement name attributes =>
    cases he : Element.ofTag? name with
    | some e =>
      rw [handle_openLayout attributes he] at hw
      cases hw
      exact ⟨rfl, rfl⟩
    | none =>
      cases hl : w.converter.listening with
      | false =>
        rw [handle_openIgnored attributes he (.inr hl)] at hw
        cases hw
        exact ⟨rfl, rfl⟩
      | true =>
        rw [handle_openOffered he hl (hf.opening name attributes w)] at hw
        cases hw
        obtain ⟨hcircumstances, hraw, -⟩ := w.converter.enter_keeps
          ((h.opening name attributes w).1.bind h.mode)
        exact ⟨hcircumstances, hraw⟩
  | closeElement name =>
    cases hp : w.converter.pending with
    | nil =>
      rw [handle_closeEmpty name hp] at hw
      cases hw
    | cons p pending =>
      rw [handle_close name hp] at hw
      obtain ⟨hcircumstances, hraw, -⟩ := close_keeps hf hw
      exact ⟨hcircumstances, hraw⟩
  | characters t =>
    cases hw
    cases hraw : w.converter.raw <;>
      simp [Converter.characters, hraw, Event.rawAfter, Converter.circumstances]
  | openRaw =>
    cases hw
    exact ⟨rfl, rfl⟩
  | closeRaw =>
    cases hw
    exact ⟨rfl, rfl⟩

theorem feed_keeps (hf : client.Follows h) {es : List Event}
    (hw : feed (some client) es w = .ok () v) :
    v.converter.circumstances = w.converter.circumstances := by
  induction es generalizing w with
  | nil =>
    cases hw
    rfl
  | cons e rest ih =>
    obtain ⟨u, hu, hrest⟩ := feed_cons_ok hw
    exact (ih hrest).trans (handle_keeps hf hu).1

end Operation
end DocMarkdown
