import DocMarkdown.Proofs.Xml.Delivery
import DocMarkdown.Proofs.Outcome

/-! What a reading adds to the events that have been delivered. It takes nothing back, and only a
tag or a reference to an entity can bring the end of an element. -/

namespace DocMarkdown.Xml

/-- From one trail to the other, events with the property have been added. -/
def Trail.Adds (P : Event → Prop) (t t' : Trail) : Prop :=
  ∃ more, t'.events = more ++ t.events ∧ ∀ e ∈ more, P e

namespace Trail.Adds
variable {P : Event → Prop} {t t' t'' : Trail}

theorem refl (t : Trail) : Trail.Adds P t t := ⟨[], rfl, List.forall_mem_nil P⟩

theorem trans (h : Trail.Adds P t t') (h' : Trail.Adds P t' t'') : Trail.Adds P t t'' := by
  obtain ⟨more, hevents, hmore⟩ := h
  obtain ⟨more', hevents', hmore'⟩ := h'
  refine ⟨more' ++ more, by rw [hevents', hevents, List.append_assoc], fun e he => ?_⟩
  exact (List.mem_append.mp he).elim (hmore' e) (hmore e)

theorem event {e : Event} (he : P e) (h : t'.events = e :: t.events) : Trail.Adds P t t' :=
  ⟨[e], h, fun _ hmem => List.mem_singleton.mp hmem ▸ he⟩

theorem flush (hP : ∀ text, P (.characters text)) (t : Trail) : Trail.Adds P t t.flush := by
  unfold Trail.flush
  split
  · exact refl t
  · exact event (hP _) rfl

theorem deliver (hP : ∀ text, P (.characters text)) {e : Event} (he : P e) (t : Trail) :
    Trail.Adds P t (t.deliver e) :=
  (flush hP t).trans (event he rfl)

theorem hold (hP : ∀ text, P (.characters text)) (piece : Text) (t : Trail) :
    Trail.Adds P t (t.hold piece) := by
  have hflush : Trail.Adds P t
      (if heldLimit < t.width + textWidth piece then t.flush else t) := by
    split
    · exact flush hP t
    · exact refl t
  unfold Trail.hold
  simp only
  split
  · exact hflush.trans (event (hP piece) rfl)
  · exact hflush

theorem holdText (hP : ∀ text, P (.characters text)) (converts : Bool) (text : Text) (t : Trail) :
    Trail.Adds P t (t.holdText converts text) := by
  unfold Trail.holdText
  split
  · generalize pieces text = pieces
    induction pieces generalizing t with
    | nil => exact refl t
    | cons piece pieces ih => exact (hold hP piece t).trans (ih _)
  · exact hold hP text t

end Trail.Adds

section
variable {ε α β : Type}

def reached (x : EStateM ε Trail α) (t : Trail) : Trail :=
  match x t with
  | .ok _ t => t
  | .error _ t => t

theorem reached_ok {x : EStateM ε Trail α} {t t' : Trail} {a : α} (h : x t = .ok a t') :
    reached x t = t' := by
  rw [reached, h]

theorem reached_error {x : EStateM ε Trail α} {t t' : Trail} {e : ε} (h : x t = .error e t') :
    reached x t = t' := by
  rw [reached, h]

theorem reached_bind {x : EStateM ε Trail α} (f : α → EStateM ε Trail β) {t t' : Trail} {a : α}
    (h : x t = .ok a t') : reached (x >>= f) t = reached (f a) t' := by
  rw [reached, EStateM.bind_of_ok h, reached]

theorem reached_bind_error {x : EStateM ε Trail α} (f : α → EStateM ε Trail β) {t t' : Trail}
    {e : ε} (h : x t = .error e t') : reached (x >>= f) t = t' :=
  reached_error (EStateM.bind_of_error h f)

def Adds (P : Event → Prop) (x : EStateM ε Trail α) : Prop := ∀ t, Trail.Adds P t (reached x t)

abbrev Grows (x : EStateM ε Trail α) : Prop := Adds (fun _ => True) x

end

def Event.Continues (e : Event) : Prop := ∀ name, e ≠ .closeElement name

theorem Event.continues_characters (t : Text) : (Event.characters t).Continues := fun _ => nofun

def Token.mayClose : Token → Bool
  | .openTag _ | .closeTag _ _ | .reference (.entity _) => true
  | _ => false

namespace Adds
variable {P Q : Event → Prop} {ε α β : Type} {x : EStateM ε Trail α}

theorem mono (h : Adds P x) (hPQ : ∀ e, P e → Q e) : Adds Q x := fun t =>
  let ⟨more, hevents, hmore⟩ := h t
  ⟨more, hevents, fun e he => hPQ e (hmore e he)⟩

theorem pure (a : α) : Adds P (Pure.pure a : EStateM ε Trail α) := Trail.Adds.refl

theorem throw (e : ε) : Adds P (MonadExcept.throw e : EStateM ε Trail α) := Trail.Adds.refl

theorem bind {f : α → EStateM ε Trail β} (hx : Adds P x) (hf : ∀ a, Adds P (f a)) :
    Adds P (x >>= f) := by
  intro t
  have hfirst := hx t
  cases hr : x t with
  | ok a t' =>
    rw [reached_ok hr] at hfirst
    rw [reached_bind f hr]
    exact hfirst.trans (hf a t')
  | error e t' =>
    rw [reached_error hr] at hfirst
    rwa [reached_bind_error f hr]

theorem adaptExcept {ε' : Type} (f : ε → ε') (hx : Adds P x) :
    Adds P (EStateM.adaptExcept f x) := by
  intro t
  have hfirst := hx t
  unfold reached EStateM.adaptExcept at *
  cases hr : x t <;> rwa [hr] at hfirst

theorem change {f : Trail → Trail} (hf : ∀ t, Trail.Adds P t (f t)) :
    Adds P (modify f : EStateM ε Trail PUnit) := hf

theorem spend (s : Source) (start : Nat) (rest : List Cell) :
    Adds P (Delivery.spend s start rest) := by
  intro t
  unfold reached Delivery.spend
  cases t.tally.spend s.scope.account start (offsetOf s.stop rest) <;> exact .refl t

theorem values (start : Nat) (v : ValueReader α) : Adds P (Delivery.values start v) := by
  intro t
  unfold reached Delivery.values
  cases v t.tally <;> exact .refl t

theorem contentEnd (s : Source) (names : List Text) (offset : Nat) :
    Adds P (Xml.contentEnd s names offset) := by
  unfold Xml.contentEnd
  split
  · exact throw _
  · split
    · exact pure _
    · exact throw _

section
variable (hP : ∀ text, P (.characters text))
include hP

theorem text (s : Source) (t : Text) : Adds P (Delivery.text s t) :=
  change (Trail.Adds.holdText hP s.converts t)

theorem char (c : Char) : Adds P (Delivery.char c) := change (Trail.Adds.hold hP [c])

theorem event {e : Event} (he : P e) : Adds P (Delivery.event e) :=
  change (Trail.Adds.deliver hP he)

theorem collect (s : Source) (start : Nat) (piece : Text) (rest : List Cell) :
    Adds P (readRaw.collect s start piece rest) := by
  unfold readRaw.collect
  split
  · exact (spend s start rest).bind fun _ => text hP s piece.reverse
  · exact pure _

theorem lineEnd (s : Source) (offset : Nat) (rest : List Cell) {x : Delivery α} (hx : Adds P x) :
    Adds P (do
      Delivery.spend s offset rest
      Delivery.char '\n'
      x) :=
  (spend s offset rest).bind fun _ => (char hP '\n').bind fun _ => hx

theorem readRaw (hraw : P .closeRaw) (s : Source) (start : Nat) (piece : Text)
    (cells : List Cell) : Adds P (Xml.readRaw s start piece cells) := by
  fun_induction Xml.readRaw s start piece cells with
  | case1 start piece => exact (collect hP s start piece []).bind fun _ => throw _
  | case2 start piece c rest hc => exact (collect hP s start piece _).bind fun _ => throw _
  | case3 start piece c rest hc => exact (collect hP s start piece _).bind fun _ => throw _
  | case4 start piece c rest hc ih =>
    exact (collect hP s start piece _).bind fun _ => lineEnd hP s c.offset rest ih
  | case5 start piece c rest hc ih =>
    refine (collect hP s start piece _).bind fun _ => ?_
    cases rest with
    | nil => exact throw _
    | cons d rest =>
      simp only at ih ⊢
      split
      · exact lineEnd hP s c.offset rest ih.1
      · exact lineEnd hP s c.offset (d :: rest) ih.2
  | case6 start piece c rest hbracket _ _ _ _ ih =>
    refine (collect hP s start piece _).bind fun _ => ?_
    split
    · exact (spend s _ _).bind fun _ => (event hP hraw).bind fun _ => pure _
    · exact throw _
    · exact ih
  | case7 start piece c rest hbracket _ _ _ _ ih => exact ih

end

theorem deliverOther (s : Source) (expand : Expansion) (names : List Text) (start : Nat)
    {token : Token} (htoken : token.mayClose = false) :
    Adds Event.Continues (Xml.deliverToken s expand names start token) := by
  have hP := Event.continues_characters
  cases token with
  | text t => exact (text hP s t).bind fun _ => pure _
  | tail t offset =>
    refine (text hP s t).bind fun _ => ?_
    split
    · exact throw _
    · exact (contentEnd s names _).bind fun _ => pure _
  | reference r =>
    cases r with
    | character x =>
      cases x with
      | none => exact throw _
      | some x => exact (char hP x).bind fun _ => pure _
    | entity name => cases htoken
  | openTag tag => cases htoken
  | closeTag name offset => cases htoken
  | skipped => exact pure _
  | declaration => exact throw _
  | rawStart =>
    have hraw : Event.openRaw.Continues := fun _ => nofun
    exact (event hP hraw).bind fun _ => pure _

theorem goOn (s : Source) (rest : List Cell) (turn : Turn) :
    Adds Event.Continues (turn.goOn s rest) := by
  cases turn with
  | next names => exact pure _
  | raw names =>
    have hraw : Event.closeRaw.Continues := fun _ => nofun
    exact (readRaw Event.continues_characters hraw s _ _ _).bind fun _ => pure _
  | done => exact pure _

section
variable {expand : Expansion} (hexpand : ∀ name, Grows (expand name))
include hexpand

theorem deliverToken (s : Source) (names : List Text) (start : Nat) (token : Token) :
    Grows (Xml.deliverToken s expand names start token) := by
  have hevent (e : Event) : Grows (Delivery.event e) := event (fun _ => trivial) trivial
  have hchar (c : Char) : Grows (Delivery.char c) := char (fun _ => trivial) c
  cases htoken : token.mayClose with
  | false => exact (deliverOther s expand names start htoken).mono fun _ _ => trivial
  | true =>
    cases token with
    | openTag tag =>
      refine (values start _).bind fun attributes => ?_
      refine (hevent _).bind fun _ => ?_
      split
      · exact (hevent _).bind fun _ => pure _
      · exact pure _
    | closeTag name offset =>
      cases names with
      | nil => exact throw _
      | cons innermost names =>
        simp only [Xml.deliverToken]
        split
        · exact (throw _).bind fun _ => (hevent _).bind fun _ => pure _
        · exact (hevent _).bind fun _ => pure _
    | reference r =>
      cases r with
      | character x => cases htoken
      | entity name =>
        simp only [Xml.deliverToken]
        split
        · have hcount : Grows (modify fun trail : Trail =>
              { trail with tally := trail.tally.addPredefined } : Delivery PUnit) :=
            change fun t => ⟨[], rfl, List.forall_mem_nil _⟩
          exact hcount.bind fun _ => (hchar _).bind fun _ => pure _
        · exact (adaptExcept _ (hexpand name)).bind fun _ => pure _
    | _ => cases htoken

theorem readTurn (s : Source) (names : List Text) (c : Cell) (rest : List Cell) :
    Grows (Xml.readTurn s expand names c rest) := by
  unfold Xml.readTurn
  split
  · exact throw _
  · refine (spend s _ _).bind fun _ => (deliverToken hexpand s names _ _).bind fun turn => ?_
    exact (goOn s _ turn).mono fun _ _ => trivial

theorem readContent (s : Source) (fuel : Nat) (names : List Text) (cells : List Cell) :
    Grows (Xml.readContent s expand fuel names cells) := by
  induction fuel generalizing names cells with
  | zero => exact throw _
  | succ fuel ih =>
    cases cells with
    | nil => exact (contentEnd s names s.stop).bind fun _ => pure _
    | cons c rest =>
      refine (readTurn hexpand s names c rest).bind fun ⟨turn, rest⟩ => ?_
      cases turn with
      | some names => exact ih names rest
      | none => exact pure _

end

theorem expandInContent (d : Doctype) (depth : Nat) (opened : List Text) (name : Text) :
    Grows (Xml.expandInContent d depth opened name) := by
  induction depth generalizing opened name with
  | zero => exact throw _
  | succ depth ih =>
    unfold Xml.expandInContent
    split
    · split
      · exact throw _
      · exact pure _
    · split
      · exact throw _
      · split
        · exact throw _
        · exact pure _
        · exact (adaptExcept _ (readContent (ih _) _ _ _ _)).bind fun _ => pure _

end Adds
end DocMarkdown.Xml
