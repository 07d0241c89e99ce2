import DocMarkdown.Client.Declaration
import DocMarkdown.Proofs.Converter.Conversion

/-! The strict policy and the lenient one. Only the end of a conversion looks at the policy, so that
two conversions of one document, which begin alike but for the policy, come to the same: also in
what a refused document has left behind, and in what its end was and where. -/

namespace DocMarkdown
open Layout Xml

variable {σ κ α β : Type}

def Converter.under (strict : Bool) (reports : List Malformed) (c : Converter κ) : Converter κ :=
  { c with config := { c.config with strict }, reports }

def World.under (strict : Bool) (reports : List Malformed) (w : World σ κ) : World σ κ :=
  { w with converter := w.converter.under strict reports }

namespace Operation

def resultUnder (strict : Bool) (reports : List Malformed) :
    EStateM.Result Stop (World σ κ) α → EStateM.Result Stop (World σ κ) α
  | .ok a w => .ok a (w.under strict reports)
  | .error stop w => .error stop (w.under strict reports)

/-- The operation heeds neither the policy nor the reports and leaves both as they are. It stops
only for an abort or for an end without its beginning. -/
structure Impartial (p : Operation σ κ α) : Prop where
  under : ∀ strict reports w,
    p (w.under strict reports) = resultUnder strict reports (p w)
  stops : ∀ w stop v, p w = .error stop v → stop = .aborted ∨ stop = .emptyPop

namespace Impartial
variable {p : Operation σ κ α}

theorem pure (a : α) : Impartial (Pure.pure a : Operation σ κ α) where
  under _ _ _ := rfl
  stops _ _ _ h := by cases h

theorem throw {stop : Stop} (hstop : stop = .aborted ∨ stop = .emptyPop) :
    Impartial (MonadExcept.throw stop : Operation σ κ α) where
  under _ _ _ := rfl
  stops _ _ _ h := by
    cases h
    exact hstop

theorem bind {f : α → Operation σ κ β} (hp : Impartial p) (hf : ∀ a, Impartial (f a)) :
    Impartial (p >>= f) where
  under strict reports w := by
    have hfirst := hp.under strict reports w
    cases hr : p w with
    | ok a v =>
      rw [hr] at hfirst
      rw [bind_ok hfirst, bind_ok hr]
      exact (hf a).under strict reports v
    | error stop v =>
      rw [hr] at hfirst
      rw [bind_error hfirst, bind_error hr]
      rfl
  stops w stop v h := by
    cases hr : p w with
    | ok a u =>
      rw [bind_ok hr] at h
      exact (hf a).stops u stop v h
    | error stop' u =>
      rw [bind_error hr] at h
      cases h
      exact hp.stops w _ _ hr

theorem inspect {f : World σ κ → Operation σ κ α} (hf : ∀ w, Impartial (f w))
    (hsame : ∀ strict reports w, f (w.under strict reports) = f w) : Impartial (get >>= f) where
  under strict reports w := by
    rw [bind_ok get_run, bind_ok get_run, hsame]
    exact (hf w).under strict reports w
  stops w := (hf w).stops w

theorem modify {f : World σ κ → World σ κ}
    (hf : ∀ strict reports w, f (w.under strict reports) = (f w).under strict reports) :
    Impartial (modify f : Operation σ κ Unit) where
  under strict reports w := congrArg (EStateM.Result.ok ()) (hf strict reports w)
  stops _ _ _ h := by cases h

theorem change {f : Converter κ → Converter κ}
    (hf : ∀ strict reports c, f (c.under strict reports) = (f c).under strict reports) :
    Impartial (change f : Operation σ κ Unit) :=
  modify fun strict reports w => congrArg (World.mk w.client) (hf strict reports w.converter)

theorem push (k : Pending κ) : Impartial (Operation.change (.push k) : Operation σ κ Unit) :=
  change fun _ _ _ => rfl

theorem beginCapture (mode : Mode) :
    Impartial (Operation.beginCapture mode : Operation σ κ Unit) := change fun _ _ _ => rfl

theorem endCapture : Impartial (Operation.endCapture : Operation σ κ Text) where
  under strict reports w := by
    rw [endCapture_run, endCapture_run]
    cases hs : w.converter.saved with
    | nil => simp only [World.under, Converter.under, Converter.endCapture, hs]; rfl
    | cons outer saved => simp only [World.under, Converter.under, Converter.endCapture, hs]; rfl
  stops _ _ _ h := by cases h

theorem abort : Impartial (abort : Operation σ κ Unit) := by
  refine inspect (fun w => ?_) fun _ _ _ => rfl
  cases w.converter.running with
  | true => exact throw (.inl rfl)
  | false => exact pure ()

end Impartial

structure Fair (client : Client σ κ) : Prop where
  opening : ∀ name attributes, Impartial (client.opening name attributes)
  closing : ∀ k, Impartial (client.closing k)

section Feeding
variable {client : Option (Client σ κ)}

theorem Impartial.close (hclient : ∀ c ∈ client, Fair c) (p : Pending κ) :
    Impartial (close client p) := by
  cases p with
  | nothing => exact .pure ()
  | layout a =>
    refine .inspect (fun w => ?_) fun _ _ _ => rfl
    refine .bind (.change fun _ _ _ => rfl) fun _ => ?_
    cases w.converter.session.permits a with
    | true => exact .pure ()
    | false => exact .throw (.inr rfl)
  | client k =>
    cases client with
    | none => exact .pure ()
    | some c => exact (hclient c rfl).closing k

theorem Impartial.openOther (hclient : ∀ c ∈ client, Fair c) (name : Text)
    (attributes : Attributes) : Impartial (openOther client name attributes) := by
  refine .inspect (fun w => ?_) fun _ _ _ => rfl
  cases client with
  | none => exact .push .nothing
  | some c =>
    cases w.converter.listening with
    | false => exact .push .nothing
    | true =>
      refine .bind ((hclient c rfl).opening name attributes) fun k => ?_
      cases k with
      | none => exact .push .nothing
      | some k => exact .push (.client k)

theorem Impartial.handle (hclient : ∀ c ∈ client, Fair c) (e : Event) :
    Impartial (handle client e) := by
  cases e with
  | openElement name attributes =>
    cases he : Element.ofTag? name with
    | some e =>
      simp only [Operation.handle, he]
      exact .change fun _ _ _ => rfl
    | none =>
      simp only [Operation.handle, he]
      exact .openOther hclient name attributes
  | closeElement name =>
    refine .inspect (fun w => ?_) fun _ _ _ => rfl
    cases w.converter.pending with
    | nil => exact .throw (.inr rfl)
    | cons p pending => exact .bind (.change fun _ _ _ => rfl) fun _ => .close hclient p
  | characters t =>
    refine .change fun strict reports c => ?_
    cases hraw : c.raw <;> simp only [Converter.characters, Converter.under, hraw]
  | openRaw => exact .change fun _ _ _ => rfl
  | closeRaw => exact .change fun _ _ _ => rfl

theorem Impartial.feed (hclient : ∀ c ∈ client, Fair c) (es : List Event) :
    Impartial (feed client es) := by
  induction es with
  | nil => exact .pure ()
  | cons e rest ih => exact .bind (.handle hclient e) fun _ => ih

end Feeding
end Operation

open Operation

theorem Builder.fair : Fair Builder.client where
  opening name attributes := by
    refine .bind (.modify fun _ _ _ => rfl) fun _ => ?_
    cases Part.ofTag? name with
    | none => exact .pure none
    | some part =>
      cases part with
      | parameter => exact .bind (.modify fun _ _ _ => rfl) fun _ => .pure _
      | _ =>
        refine .inspect (fun w => ?_) fun _ _ _ => rfl
        cases w.client.captureMode _ with
        | none => exact .pure none
        | some mode => exact .bind (.beginCapture mode) fun _ => .pure _
  closing part := by
    cases part with
    | parameter => exact .modify fun _ _ _ => rfl
    | _ => exact .bind .endCapture fun _ => .modify fun _ _ _ => rfl

theorem Extractor.fair : Fair Extractor.client where
  opening name attributes := by
    simp only [Extractor.client, Extractor.opening]
    split
    · exact .bind (.beginCapture .text) fun _ => .pure _
    · exact .pure none
  closing _ := by
    refine .bind .endCapture fun text => ?_
    -- the found text is the only thing that is set
    let found : Extractor := { signature := some text }
    change Impartial
      ((modify fun w : World Extractor Unit => { w with client := found }) >>= fun _ => abort)
    exact .bind (.modify fun _ _ _ => rfl) fun _ => .abort

/-- The ends of a strict and of a lenient conversion of one document, where both have come to the
world `v` but for the policy and the reports. -/
inductive Concur (d : Document) (reports : List Malformed) (v : World σ κ) :
    EStateM.Result Stop (World σ κ) Unit → EStateM.Result Stop (World σ κ) Unit → Prop
  | accepted :
    Concur d reports v (.ok () (v.under true reports)) (.ok () (v.under false reports))
  | refused {reason : Reason} {place : Place} (h : d.read.ending = .malformed reason place) :
    Concur d reports v (.error (.malformed (.ofReading reason place d)) (v.under true reports))
      (.ok () (v.under false (.ofReading reason place d :: reports)))
  | stopped :
    Concur d reports v (.error .emptyPop (v.under true reports))
      (.error .emptyPop (v.under false reports))

namespace Operation
variable {client : Option (Client σ κ)} {d : Document} {w v : World σ κ}

theorem convert_concurs (hclient : ∀ c ∈ client, Fair c) (units : List TextUnit) (x : σ)
    (c : Converter κ) (reports : List Malformed) :
    let d := Document.text units
    ∃ v : World σ κ, v.converter.running = false ∧ v.converter.listening = false ∧
      Concur d reports v (convert client d ⟨x, c.under true reports⟩)
        (convert client d ⟨x, c.under false reports⟩) := by
  intro d
  have hfeed (strict : Bool) := (Impartial.feed hclient d.read.events).under strict reports
    ⟨x, c.start client.isSome⟩
  have hstops := (Impartial.feed hclient d.read.events).stops ⟨x, c.start client.isSome⟩
  cases hr : feed client d.read.events ⟨x, c.start client.isSome⟩ with
  | ok _ v =>
    rw [hr] at hfeed
    have hconvert (strict : Bool) :=
      convert_delivered (w := ⟨x, c.under strict reports⟩) (hfeed strict)
    refine ⟨v.settled none, rfl, rfl, ?_⟩
    rw [hconvert true, hconvert false]
    simp only [Document.verdict]
    cases he : d.read.ending with
    | complete => exact .accepted
    | malformed reason place => exact .refused he
    | unusableEncoding name why => exact absurd he (Document.text_ending_ne units name why)
  | error stop v =>
    rw [hr] at hfeed
    refine ⟨v.settled none, rfl, rfl, ?_⟩
    rcases hstops stop v hr with rfl | rfl
    · rw [convert_aborted (w := ⟨x, c.under true reports⟩) (hfeed true),
        convert_aborted (w := ⟨x, c.under false reports⟩) (hfeed false)]
      exact .accepted
    · have hne : Stop.emptyPop ≠ .aborted := by decide
      rw [convert_stopped (w := ⟨x, c.under true reports⟩) hne (hfeed true),
        convert_stopped (w := ⟨x, c.under false reports⟩) hne (hfeed false)]
      exact .stopped

theorem endCapture_under (strict : Bool) (reports : List Malformed) (w : World σ κ) :
    ∃ u, endCapture (w.under strict reports) = .ok w.converter.session.captured u :=
  ⟨_, endCapture_run _⟩

theorem toMarkdown_concurs (hclient : ∀ c ∈ client, Fair c) (units : List TextUnit) (x : σ)
    (c : Converter κ) (reports : List Malformed) :
    let hard := toMarkdown client (.text units) ⟨x, c.under true reports⟩
    let soft := toMarkdown client (.text units) ⟨x, c.under false reports⟩
    (∃ t u v, hard = .ok t u ∧ soft = .ok t v) ∨
    (∃ m t u u' v, hard = .error (.malformed m) u ∧ endCapture u = .ok t u' ∧ soft = .ok t v) ∨
    ∃ u v, hard = .error .emptyPop u ∧ soft = .error .emptyPop v := by
  let begun : Converter κ := c.reset.beginCapture .markdown
  have hstart (strict : Bool) : toMarkdown client (.text units) ⟨x, c.under strict reports⟩ =
      (convert client (.text units) >>= fun _ => endCapture) ⟨x, begun.under strict reports⟩ := rfl
  obtain ⟨v, -, -, hconcur⟩ := convert_concurs hclient units x begun reports
  simp only [hstart]
  generalize hhard : convert client (.text units) ⟨x, begun.under true reports⟩ = hard at hconcur
  generalize hsoft : convert client (.text units) ⟨x, begun.under false reports⟩ = soft at hconcur
  cases hconcur with
  | accepted =>
    obtain ⟨u, hu⟩ := endCapture_under true reports v
    obtain ⟨u', hu'⟩ := endCapture_under false reports v
    exact .inl ⟨_, u, u', (bind_ok hhard).trans hu, (bind_ok hsoft).trans hu'⟩
  | refused =>
    obtain ⟨u, hu⟩ := endCapture_under true reports v
    obtain ⟨u', hu'⟩ := endCapture_under false _ v
    exact .inr (.inl ⟨_, _, _, u, u', bind_error hhard, hu, (bind_ok hsoft).trans hu'⟩)
  | stopped => exact .inr (.inr ⟨_, _, bind_error hhard, bind_error hsoft⟩)

end Operation

/-- With this client a strict and a lenient conversion of a text, from states that differ in the
policy only, come to the same. A refusal stops the one and is the only report of the other; and
what a strict conversion to Markdown has left behind is the Markdown that the lenient one gives. -/
def DifferInAnnouncement (client : Option (Client σ κ)) : Prop :=
  ∀ (units : List TextUnit) (x : σ) (c : Converter κ) (reports : List Malformed),
    let d := Document.text units
    let hard : World σ κ := ⟨x, c.under true reports⟩
    let soft : World σ κ := ⟨x, c.under false reports⟩
    (∃ v : World σ κ, v.converter.running = false ∧ v.converter.listening = false ∧
      Concur d reports v (convert client d hard) (convert client d soft)) ∧
    ((∃ t u v, toMarkdown client d hard = .ok t u ∧ toMarkdown client d soft = .ok t v) ∨
      (∃ m t u u' v, toMarkdown client d hard = .error (.malformed m) u ∧
        endCapture u = .ok t u' ∧ toMarkdown client d soft = .ok t v) ∨
      ∃ u v, toMarkdown client d hard = .error .emptyPop u ∧
        toMarkdown client d soft = .error .emptyPop v)

theorem differInAnnouncement_of_fair {client : Option (Client σ κ)}
    (h : ∀ c ∈ client, Fair c) : DifferInAnnouncement client := fun units x c reports =>
  ⟨convert_concurs h units x c reports, toMarkdown_concurs h units x c reports⟩

/-- The policy decides nothing but how a refused text is announced, without a client as well as for
the record of a declaration and for its signature. -/
theorem policies_differ_in_announcement :
    DifferInAnnouncement (none : Option (Client σ κ)) ∧
    DifferInAnnouncement (some Builder.client) ∧ DifferInAnnouncement (some Extractor.client) := by
  refine ⟨differInAnnouncement_of_fair nofun, differInAnnouncement_of_fair ?_,
    differInAnnouncement_of_fair ?_⟩
  · rintro c ⟨⟩
    exact Builder.fair
  · rintro c ⟨⟩
    exact Extractor.fair

example :
    let m := Malformed.ofReading .noElement ⟨1, 0⟩ (.ofString "")
    Converter.markdown { strict := true } (.ofString "") = (.error (.malformed m), []) ∧
      Converter.markdown {} (.ofString "") = (.ok [], [m]) := ⟨rfl, rfl⟩

end DocMarkdown
