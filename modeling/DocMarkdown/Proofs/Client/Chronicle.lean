import DocMarkdown.Proofs.Client.History
import DocMarkdown.Proofs.Client.Program

/-! Conversions that keep a history. It stands next to the state of the client, and what is done is
otherwise the same: to forget the history of such a conversion is to convert without one. -/

namespace DocMarkdown
open Layout Xml Operation

variable {σ κ α β : Type}

abbrev Chronicled (σ κ : Type) := Operation (σ × History) κ

namespace Chronicle

def tell (x : Occurrence) : Chronicled σ κ Unit :=
  modify fun w => { w with client := (w.client.1, x :: w.client.2) }

theorem tell_then (x : Occurrence) (p : Chronicled σ κ α) (w : World (σ × History) κ) :
    (tell x >>= fun _ => p) w = p ⟨(w.client.1, x :: w.client.2), w.converter⟩ := rfl

def own (change : σ → σ) : Chronicled σ κ σ :=
  modifyGet fun w => (w.client.1, { w with client := (change w.client.1, w.client.2) })

def abort : Chronicled σ κ Unit := do
  tell (if (← get).converter.running then .aborted else .ignored)
  Operation.abort

theorem abort_run (w : World (σ × History) κ) :
    abort w = if w.converter.running
      then .error .aborted ⟨(w.client.1, .aborted :: w.client.2), w.converter⟩
      else .ok () ⟨(w.client.1, .ignored :: w.client.2), w.converter⟩ := by
  simp only [abort, Operation.abort]
  rw [bind_ok get_run, tell_then, bind_ok get_run]
  cases w.converter.running <;> rfl

def reset : Chronicled σ κ Unit := do
  tell .reset
  Operation.reset

def feed (client : Option (Client (σ × History) κ)) (n : Nat) : List Event → Chronicled σ κ Unit
  | [] => return
  | e :: rest => do
    tell (.handled n e)
    Operation.handle client e
    feed client n rest

def conclude (n : Nat) (d : Document) : Ending → Chronicled σ κ Unit
  | .malformed reason place => do
    tell (.faulted n (.ofReading reason place d))
    Operation.conclude d (.malformed reason place)
  | e => Operation.conclude d e

def convert (client : Option (Client (σ × History) κ)) (d : Document) : Chronicled σ κ Unit :=
  fun w =>
    let n := w.client.2.begun
    let settle := fun (result : Except Stop Unit) (w : World (σ × History) κ) =>
      (⟨(w.client.1, .ended n result :: w.client.2), w.converter.finish⟩ : World (σ × History) κ)
    match (do feed client n d.read.events; conclude n d d.read.ending : Chronicled σ κ Unit)
      ⟨(w.client.1, .began n d :: w.client.2), w.converter.start client.isSome⟩ with
    | .ok () w => .ok () (settle (.ok ()) w)
    | .error .aborted w => .ok () (settle (.error .aborted) w)
    | .error stop w => .error stop (settle (.error stop) w)

end Chronicle

def Calls.chronicled : Calls σ (σ × History) κ where
  own := Chronicle.own
  abort := Chronicle.abort
  reset := Chronicle.reset
  convert := Chronicle.convert

def World.forget (w : World (σ × History) κ) : World σ κ := ⟨w.client.1, w.converter⟩

@[simp] theorem World.forget_converter (w : World (σ × History) κ) :
    w.forget.converter = w.converter := rfl

namespace Operation

def forgotten : EStateM.Result Stop (World (σ × History) κ) α → EStateM.Result Stop (World σ κ) α
  | .ok a w => .ok a w.forget
  | .error stop w => .error stop w.forget

theorem forgotten_error {r : EStateM.Result Stop (World (σ × History) κ) α} {stop : Stop}
    {v : World σ κ} (h : forgotten r = .error stop v) : ∃ u, r = .error stop u ∧ u.forget = v := by
  cases r with
  | ok a u => cases h
  | error stop' u =>
    cases h
    exact ⟨u, rfl, rfl⟩

/-- The two are the same but for the history. -/
def Retells (p : Chronicled σ κ α) (q : Operation σ κ α) : Prop :=
  ∀ w, forgotten (p w) = q w.forget

namespace Retells
variable {p : Chronicled σ κ α} {q : Operation σ κ α}

theorem pure (a : α) : Retells (Pure.pure a : Chronicled σ κ α) (Pure.pure a) := fun _ => rfl

theorem throw (stop : Stop) :
    Retells (MonadExcept.throw stop : Chronicled σ κ α) (MonadExcept.throw stop) := fun _ => rfl

theorem bind {f : α → Chronicled σ κ β} {g : α → Operation σ κ β} (h : Retells p q)
    (hf : ∀ a, Retells (f a) (g a)) : Retells (p >>= f) (q >>= g) := by
  intro w
  have hfirst := h w
  cases hp : p w with
  | ok a v =>
    rw [hp] at hfirst
    rw [bind_ok hp, bind_ok hfirst.symm]
    exact hf a v
  | error stop v =>
    rw [hp] at hfirst
    rw [bind_error hp, bind_error hfirst.symm]
    rfl

theorem told (x : Occurrence) (h : Retells p q) :
    Retells (Chronicle.tell x >>= fun _ => p) q := fun w =>
  h { w with client := (w.client.1, x :: w.client.2) }

theorem change (f : Converter κ → Converter κ) :
    Retells (Operation.change f : Chronicled σ κ Unit) (Operation.change f) := fun _ => rfl

theorem get {f : World (σ × History) κ → Chronicled σ κ β} {g : World σ κ → Operation σ κ β}
    (h : ∀ w, Retells (f w) (g w.forget)) : Retells (MonadState.get >>= f) (MonadState.get >>= g) :=
  fun w => h w w

theorem lookup {f : World (σ × History) κ → Chronicled σ κ α} (h : ∀ w, Retells (f w) q) :
    Retells (MonadState.get >>= f) q := fun w => h w w

end Retells

inductive Alike : Option (Client (σ × History) κ) → Option (Client σ κ) → Prop
  | none : Alike none none
  | some {told : Client (σ × History) κ} {client : Client σ κ}
      (hopening : ∀ name attributes,
        Retells (told.opening name attributes) (client.opening name attributes))
      (hclosing : ∀ k, Retells (told.closing k) (client.closing k)) :
      Alike (some told) (some client)

namespace Retells
variable {told : Option (Client (σ × History) κ)} {client : Option (Client σ κ)}

theorem close (h : Alike told client) (p : Pending κ) :
    Retells (Operation.close told p) (Operation.close client p) := by
  cases p with
  | nothing => exact .pure ()
  | layout a =>
    refine .get fun w => .bind (.change _) fun _ => ?_
    rw [World.forget_converter]
    cases w.converter.session.permits a with
    | true => exact .pure ()
    | false => exact .throw .emptyPop
  | client k =>
    cases h with
    | none => exact .pure ()
    | some _ hclosing => exact hclosing k

theorem openOther (h : Alike told client) (name : Text) (attributes : Attributes) :
    Retells (Operation.openOther told name attributes)
      (Operation.openOther client name attributes) := by
  cases h with
  | none => exact .get fun w => .change _
  | @some told client hopening hclosing =>
    refine .get fun w => ?_
    rw [World.forget_converter]
    cases w.converter.listening with
    | false => exact .change _
    | true =>
      refine .bind (hopening name attributes) fun k => ?_
      cases k with
      | none => exact .change _
      | some k => exact .change _

theorem handle (h : Alike told client) (e : Event) :
    Retells (Operation.handle told e) (Operation.handle client e) := by
  cases e with
  | openElement name attributes =>
    cases he : Element.ofTag? name with
    | some e =>
      simp only [Operation.handle, he]
      exact .change _
    | none =>
      simp only [Operation.handle, he]
      exact .openOther h name attributes
  | closeElement name =>
    refine .get fun w => ?_
    rw [World.forget_converter]
    cases w.converter.pending with
    | nil => exact .throw .emptyPop
    | cons p pending => exact .bind (.change _) fun _ => .close h p
  | characters t => exact .change _
  | openRaw => exact .change _
  | closeRaw => exact .change _

theorem feed (h : Alike told client) (n : Nat) (es : List Event) :
    Retells (Chronicle.feed told n es) (Operation.feed client es) := by
  induction es with
  | nil => exact .pure ()
  | cons e rest ih => exact .told _ (.bind (.handle h e) fun _ => ih)

theorem conclude (n : Nat) (d : Document) (e : Ending) :
    Retells (Chronicle.conclude n d e : Chronicled σ κ Unit) (Operation.conclude d e) := by
  cases e with
  | complete => exact .pure ()
  | malformed reason place =>
    refine .told _ (.get fun w => ?_)
    rw [World.forget_converter]
    cases w.converter.config.strict with
    | true => exact .bind (.throw _) fun _ => .change _
    | false =>
      simp only [Bool.false_eq_true, if_false]
      exact .change _
  | unusableEncoding name why => exact .throw _

theorem convert (h : Alike told client) (d : Document) :
    Retells (Chronicle.convert told d) (Operation.convert client d) := by
  intro w
  have hsome : told.isSome = client.isSome := by cases h <;> rfl
  have hrun := Retells.bind (.feed h w.client.2.begun d.read.events)
    (fun _ => .conclude w.client.2.begun d d.read.ending)
    ⟨(w.client.1, .began w.client.2.begun d :: w.client.2), w.converter.start told.isSome⟩
  have hstart : World.forget ⟨(w.client.1, .began w.client.2.begun d :: w.client.2),
      w.converter.start told.isSome⟩ =
        ⟨w.forget.client, w.forget.converter.start client.isSome⟩ := by
    rw [hsome]
    rfl
  rw [hstart] at hrun
  simp only [Chronicle.convert, Operation.convert, deliver, ← hrun]
  generalize (Chronicle.feed told w.client.2.begun d.read.events >>= fun _ =>
    Chronicle.conclude w.client.2.begun d d.read.ending)
      ⟨(w.client.1, .began w.client.2.begun d :: w.client.2), w.converter.start told.isSome⟩ = r
  cases r with
  | ok _ v => rfl
  | error stop v => cases stop <;> rfl

theorem perform (p : Program σ κ α) : Retells (p.perform .chronicled) (p.perform .plain) := by
  induction p with
  | done a => exact .pure a
  | own change next ih => exact .bind (fun _ => rfl) ih
  | beginCapture mode next ih => exact .bind (.change _) fun _ => ih
  | endCapture next ih => exact .bind (fun _ => rfl) ih
  | abort next ih =>
    refine .bind (.lookup fun w => .told _ (.get fun w => ?_)) fun _ => ih
    rw [World.forget_converter]
    cases w.converter.running with
    | true => exact .throw .aborted
    | false => exact .pure ()
  | reset next ih => exact .bind (.told _ (.change _)) fun _ => ih
  | convert d opening closing next ihopening ihclosing ih =>
    exact .bind (.convert (.some ihopening ihclosing) d) fun _ => ih
  | convertAlone d next ih => exact .bind (.convert .none d) fun _ => ih

end Retells

theorem Alike.handlers (h : Option (Handlers σ κ)) :
    Alike (h.map (·.client .chronicled)) (h.map (·.client .plain)) := by
  cases h with
  | none => exact .none
  | some h => exact .some (fun name attributes => .perform _) fun k => .perform _

end Operation
end DocMarkdown
