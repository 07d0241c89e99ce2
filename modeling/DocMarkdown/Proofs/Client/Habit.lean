import DocMarkdown.Client.Declaration
import DocMarkdown.Proofs.Converter.Step

/-! Clients that keep captures and elements together. Such a client begins at most one capture
when an element opens, ends it when the same element closes, and does nothing else to the
converter. A habit says what it decides, which may hang on all that it can see. -/

namespace DocMarkdown
open Layout

/-- `mode` is that of the capture that a leftover ends, if it ends one. What is kept for the
end of an element and the new state of the client follow from the element and the world in which
it opens; at its end they follow from the captured text, if there is one, and the world in which
it closes. -/
structure Habit (σ κ : Type) where
  mode : κ → Option Mode
  opening : Text → Attributes → World σ κ → Option κ × σ
  closing : κ → Option Text → World σ κ → σ

namespace Converter
variable {κ : Type}

def enter : Option Mode → Converter κ → Converter κ
  | some mode, c => c.beginCapture mode
  | none, c => c

def leave : Option Mode → Converter κ → Converter κ
  | some _, c => c.endCapture.2
  | none, c => c

def handed : Option Mode → Converter κ → Option Text
  | some _, c => some c.endCapture.1
  | none, _ => none

end Converter

structure Client.Follows {σ κ : Type} (client : Client σ κ) (h : Habit σ κ) : Prop where
  opening : ∀ name attributes w, client.opening name attributes w =
    .ok (h.opening name attributes w).1
      ⟨(h.opening name attributes w).2,
        w.converter.enter ((h.opening name attributes w).1.bind h.mode)⟩
  closing : ∀ k w, client.closing k w =
    .ok () ⟨h.closing k (w.converter.handed (h.mode k)) w, w.converter.leave (h.mode k)⟩

/-- What becomes of elements without a layout of their own: they are passed over when there is
no client or the converter does not listen, and otherwise are offered to a client of this habit. -/
inductive Attends {σ κ : Type} : Option (Client σ κ) → Bool → Option (Habit σ κ) → Prop
  | absent (listening : Bool) : Attends none listening none
  | deaf (client : Client σ κ) : Attends (some client) false none
  | offered {client : Client σ κ} {h : Habit σ κ} (hf : client.Follows h) :
      Attends (some client) true (some h)

theorem Attends.ignores {σ κ : Type} {client : Option (Client σ κ)} {listening : Bool}
    (h : Attends client listening none) : client = none ∨ listening = false := by
  cases h with
  | absent => exact .inl rfl
  | deaf client => exact .inr rfl

theorem Attends.of_some {σ κ : Type} {client : Option (Client σ κ)} {listening : Bool}
    {h : Habit σ κ} (ha : Attends client listening (some h)) :
    ∃ c, client = some c ∧ listening = true ∧ c.Follows h := by
  cases ha with
  | offered hf => exact ⟨_, rfl, rfl, hf⟩

def Builder.habit : Habit Builder Part where
  mode
    | .name | .usr | .declaration => some .text
    | .discussion | .resultDiscussion => some .markdown
    | .parameter => none
  opening name attributes w :=
    let b := w.client.root name attributes
    match Part.ofTag? name with
    | none => (none, b)
    | some .parameter => (some .parameter, { b with parameter := some {} })
    | some part => ((b.captureMode part).map fun _ => part, b)
  closing part text w :=
    match text with
    | some t => w.client.store part t
    | none => w.client.endParameter

theorem Builder.client_follows : Builder.client.Follows Builder.habit where
  opening name attributes w := by
    have hroot : Builder.change (Builder.root name attributes) w =
        .ok () ⟨w.client.root name attributes, w.converter⟩ := rfl
    change Builder.opening name attributes w = _
    simp only [Builder.opening, Builder.habit]
    rw [Operation.bind_ok hroot]
    cases Part.ofTag? name with
    | none => rfl
    | some part =>
      cases part with
      | discussion =>
        change (get >>= _ : Operation Builder Part (Option Part)) _ = _
        rw [Operation.bind_ok Operation.get_run]
        cases hq : (w.client.root name attributes).parameter.isSome with
        | false =>
          simp only [Builder.captureMode, hq]
          rfl
        | true =>
          simp only [Builder.captureMode, hq]
          rfl
      | _ => rfl
  closing part w := by cases part <;> rfl

end DocMarkdown
