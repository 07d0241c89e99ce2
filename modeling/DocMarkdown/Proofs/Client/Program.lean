import DocMarkdown.Client.Script
import DocMarkdown.Proofs.Converter.Usage

/-! Clients given by programs. A program is a tree of the calls that a handler makes, where what
comes next may hang on what a call returns and on the state of the client. A call may convert a
further document, with a client whose handlers are programs again. -/

namespace DocMarkdown
open Layout Xml Operation

variable {σ τ κ α β : Type}

/-- `own` changes the state of the client, and goes on with the state before. -/
inductive Program (σ κ : Type) : Type → Type 1
  | done {α : Type} (a : α) : Program σ κ α
  | own {α : Type} (change : σ → σ) (next : σ → Program σ κ α) : Program σ κ α
  | beginCapture {α : Type} (mode : Mode) (next : Program σ κ α) : Program σ κ α
  | endCapture {α : Type} (next : Text → Program σ κ α) : Program σ κ α
  | abort {α : Type} (next : Program σ κ α) : Program σ κ α
  | reset {α : Type} (next : Program σ κ α) : Program σ κ α
  | convert {α : Type} (d : Document) (opening : Text → Attributes → Program σ κ (Option κ))
      (closing : κ → Program σ κ Unit) (next : Program σ κ α) : Program σ κ α
  | convertAlone {α : Type} (d : Document) (next : Program σ κ α) : Program σ κ α

structure Calls (σ τ κ : Type) where
  own : (σ → σ) → Operation τ κ σ
  abort : Operation τ κ Unit
  reset : Operation τ κ Unit
  convert : Option (Client τ κ) → Document → Operation τ κ Unit

def Calls.plain : Calls σ σ κ where
  own change := modifyGet fun w => (w.client, { w with client := change w.client })
  abort := Operation.abort
  reset := Operation.reset
  convert := Operation.convert

namespace Program

def perform (calls : Calls σ τ κ) {α : Type} : Program σ κ α → Operation τ κ α
  | .done a => return a
  | .own change next => do (next (← calls.own change)).perform calls
  | .beginCapture mode next => do
    Operation.beginCapture mode
    next.perform calls
  | .endCapture next => do (next (← Operation.endCapture)).perform calls
  | .abort next => do
    calls.abort
    next.perform calls
  | .reset next => do
    calls.reset
    next.perform calls
  | .convert d opening closing next => do
    calls.convert (some
      ⟨fun name attributes => (opening name attributes).perform calls,
        fun k => (closing k).perform calls⟩) d
    next.perform calls
  | .convertAlone d next => do
    calls.convert none d
    next.perform calls

def bind {α β : Type} : Program σ κ α → (α → Program σ κ β) → Program σ κ β
  | .done a, f => f a
  | .own change next, f => .own change fun x => (next x).bind f
  | .beginCapture mode next, f => .beginCapture mode (next.bind f)
  | .endCapture next, f => .endCapture fun t => (next t).bind f
  | .abort next, f => .abort (next.bind f)
  | .reset next, f => .reset (next.bind f)
  | .convert d opening closing next, f => .convert d opening closing (next.bind f)
  | .convertAlone d next, f => .convertAlone d (next.bind f)

theorem perform_bind (calls : Calls σ τ κ) (p : Program σ κ α) (f : α → Program σ κ β) :
    (p.bind f).perform calls = p.perform calls >>= fun a => (f a).perform calls := by
  induction p with
  | done a => exact (pure_bind a fun a => (f a).perform calls).symm
  | own change next ih => simp only [bind, perform, ih, bind_assoc]
  | beginCapture mode next ih => simp only [bind, perform, ih, bind_assoc]
  | endCapture next ih => simp only [bind, perform, ih, bind_assoc]
  | abort next ih => simp only [bind, perform, ih, bind_assoc]
  | reset next ih => simp only [bind, perform, ih, bind_assoc]
  | convert d opening closing next _ _ ih => simp only [bind, perform, ih, bind_assoc]
  | convertAlone d next ih => simp only [bind, perform, ih, bind_assoc]

end Program

structure Handlers (σ κ : Type) where
  opening : Text → Attributes → Program σ κ (Option κ)
  closing : κ → Program σ κ Unit

def Handlers.client (calls : Calls σ τ κ) (h : Handlers σ κ) : Client τ κ where
  opening name attributes := (h.opening name attributes).perform calls
  closing k := (h.closing k).perform calls

namespace Script

def handlersOf (run : List Act → Program Log Rest Unit) (rules : Rules) : Handlers Log Rest where
  opening name attributes := .own (.opened name attributes :: ·) fun _ =>
    match ruleFor rules name with
    | none => .done none
    | some (opening, closing) => (run opening).bind fun _ => .done (closing.map (⟨name, ·⟩))
  closing rest := .own (.closed rest.name :: ·) fun _ => run rest.acts

def Act.program (run : List Act → Program Log Rest Unit) (next : Program Log Rest Unit) :
    Act → Program Log Rest Unit
  | .beginCapture mode => .beginCapture mode next
  | .endCapture => .endCapture fun t => .own (.captured t :: ·) fun _ => next
  | .abort => .abort next
  | .reset => .reset next
  | .convert d none => .convertAlone d next
  | .convert d (some rules) =>
    .convert d (handlersOf run rules).opening (handlersOf run rules).closing next

def program : Nat → List Act → Program Log Rest Unit
  | 0, _ => .done ()
  | depth + 1, acts => acts.foldr (fun act next => act.program (program depth) next) (.done ())

theorem client_handlersOf {run : List Act → Operation Log Rest Unit}
    {told : List Act → Program Log Rest Unit} (h : ∀ acts, (told acts).perform .plain = run acts)
    (rules : Rules) : (handlersOf told rules).client .plain = clientOf run rules := by
  refine congrArg₂ Client.mk (funext fun name => funext fun attributes => ?_)
    (funext fun rest => ?_)
  · change (note (.opened name attributes) >>= fun _ => _) = _
    refine congrArg (note (.opened name attributes) >>= ·) (funext fun _ => ?_)
    cases ruleFor rules name with
    | none => rfl
    | some rule =>
      dsimp only
      rw [Program.perform_bind, h]
      rfl
  · exact congrArg (note (.closed rest.name) >>= ·) (funext fun _ => h rest.acts)

theorem perform_program (depth : Nat) (acts : List Act) :
    (program depth acts).perform .plain = run depth acts := by
  induction depth generalizing acts with
  | zero => rfl
  | succ depth ihdepth =>
    simp only [program, run]
    induction acts with
    | nil => rfl
    | cons act rest ih =>
      rw [List.foldr_cons, List.forM_eq_forM, List.forM_cons, ← List.forM_eq_forM, ← ih]
      cases act with
      | beginCapture mode => rfl
      | endCapture => rfl
      | abort => rfl
      | reset => rfl
      | convert d rules =>
        cases rules with
        | none => rfl
        | some rules =>
          simp only [Option.map_some, ← client_handlersOf ihdepth]
          rfl

def handlers (rules : Rules) : Handlers Log Rest := handlersOf (program (rulesDepth rules)) rules

theorem client_handlers (rules : Rules) : (handlers rules).client .plain = client rules :=
  client_handlersOf (perform_program _) rules

end Script

def World.Idle (w : World σ κ) : Prop :=
  w.converter.running = false ∧ w.converter.listening = false

namespace Operation

theorem convert_idle (client : Option (Client σ κ)) (d : Document) (w : World σ κ) :
    (final (convert client d w)).Idle := by
  unfold convert deliver
  dsimp only
  split <;> exact ⟨rfl, rfl⟩

theorem convert_ne_aborted (client : Option (Client σ κ)) (d : Document) (w v : World σ κ) :
    convert client d w ≠ .error .aborted v := by
  unfold convert deliver
  dsimp only
  split
  · nofun
  · nofun
  · rename_i hstop _
    intro h
    cases h
    exact hstop rfl

theorem abort_idle {w : World σ κ} (h : w.Idle) : abort w = .ok () w := by
  simp only [abort]
  rw [bind_ok get_run, h.1]
  rfl

end Operation

theorem Program.perform_idle (p : Program σ κ α) : Keeps World.Idle (p.perform .plain) := by
  induction p with
  | done a => exact .pure a
  | own change next ih => exact .bind (fun _ hw => hw) ih
  | beginCapture mode next ih => exact .bind (fun _ hw => hw) fun _ => ih
  | endCapture next ih =>
    refine .bind (fun w hw => ?_) ih
    rw [endCapture_run]
    unfold Converter.endCapture
    cases w.converter.saved <;> exact hw
  | abort next ih =>
    refine .bind (fun w hw => ?_) fun _ => ih
    rw [show Calls.plain.abort w = _ from abort_idle hw]
    exact hw
  | reset next ih => exact .bind (fun _ _ => ⟨rfl, rfl⟩) fun _ => ih
  | convert d opening closing next _ _ ih =>
    exact .bind (fun w _ => convert_idle _ d w) fun _ => ih
  | convertAlone d next ih => exact .bind (fun w _ => convert_idle none d w) fun _ => ih

/-- The worlds outside of conversions, before and after programs that are performed one after the
other. A program may have been stopped. -/
inductive Reachable : World σ κ → Prop
  | new (x : σ) (config : Config) : Reachable ⟨x, .new config⟩
  | after {α : Type} {w : World σ κ} (p : Program σ κ α) (h : Reachable w) :
      Reachable (final (p.perform .plain w))

theorem Reachable.idle {w : World σ κ} (h : Reachable w) : w.Idle := by
  induction h with
  | new x config => exact ⟨rfl, rfl⟩
  | after p _ ih => exact p.perform_idle _ ih

end DocMarkdown
