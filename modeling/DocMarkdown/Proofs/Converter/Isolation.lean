import DocMarkdown.Proofs.Client.Record
import DocMarkdown.Proofs.Converter.Lockstep

/-! What a client comes to in a document, if its conversion gets through, is what the evaluation
gives. Outside captures the converter goes other ways than the evaluation, for it gives up the
session when a capture begins there; but the client sees nothing of this. -/

namespace DocMarkdown
open Layout Xml Operation

variable {σ κ : Type}

inductive Habit.Takes (h : Habit σ κ) (name : Text) (attributes : Attributes) (w : World σ κ) : Prop
  | layout {e : Element} (he : Element.ofTag? name = some e)
  | passed {y : σ} (he : Element.ofTag? name = none)
      (ha : h.opening name attributes w = (none, y))
  | told {k : κ} {y : σ} (he : Element.ofTag? name = none)
      (ha : h.opening name attributes w = (some k, y)) (hmode : h.mode k = none)
  | captured {k : κ} {y : σ} {mode : Mode} (he : Element.ofTag? name = none)
      (ha : h.opening name attributes w = (some k, y)) (hmode : h.mode k = some mode)

theorem Habit.takes (h : Habit σ κ) (name : Text) (attributes : Attributes) (w : World σ κ) :
    h.Takes name attributes w := by
  cases he : Element.ofTag? name with
  | some e => exact .layout he
  | none =>
    rcases ha : h.opening name attributes w with ⟨_ | k, y⟩
    · exact .passed he ha
    · cases hmode : h.mode k with
      | none => exact .told he ha hmode
      | some mode => exact .captured he ha hmode

namespace Xml.Tree
variable {h : Habit σ κ} {around around' : Converter κ} {name : Text} {attributes : Attributes}
  {content : List Tree} {x y : σ} {s : Session} {k : κ}

section Offered
variable (he : Element.ofTag? name = none)
include he

theorem eval_passed (ha : h.opening name attributes (around.showing (x, s)) = (none, y)) :
    eval (some h) around (element name attributes content) (x, s) =
      evalAll (some h) (around.push .nothing) content (y, s) := by
  rw [eval_offered he, ha]

theorem eval_told (ha : h.opening name attributes (around.showing (x, s)) = (some k, y))
    (hmode : h.mode k = none) :
    eval (some h) around (element name attributes content) (x, s) =
      let v := evalAll (some h) (around.push (.client k)) content (y, s)
      (h.closing k none (around.showing v), v.2) := by
  rw [eval_offered he, ha]
  simp only [Option.bind_some, hmode]

theorem eval_captured (ha : h.opening name attributes (around.showing (x, s)) = (some k, y))
    {mode : Mode} (hmode : h.mode k = some mode) :
    eval (some h) around (element name attributes content) (x, s) =
      let inner := { around with saved := s :: around.saved }
      let v := evalAll (some h) (inner.push (.client k)) content (y, around.fresh mode)
      (h.closing k (some v.2.captured) (inner.showing v), s.write v.2.captured) := by
  rw [eval_offered he, ha]
  simp only [Option.bind_some, hmode]
  rfl

end Offered

theorem evalAll_around (hblind : h.Blind)
    (hwidth : around.config.indentWidth = around'.config.indentWidth) (v : σ × Session) :
    evalAll (some h) around content v = evalAll (some h) around' content v := by
  induction content using contentInduction generalizing around around' v with
  | nil => rfl
  | characters t rest ih => exact ih hwidth _
  | raw pieces rest ih => exact ih hwidth _
  | element name attributes content rest ihc ih =>
    obtain ⟨x, s⟩ := v
    suffices heval : eval (some h) around (element name attributes content) (x, s) =
        eval (some h) around' (element name attributes content) (x, s) by
      rw [evalAll, evalAll, heval]
      exact ih hwidth _
    have hcontent : ∀ p v, evalAll (some h) (around.push p) content v =
        evalAll (some h) (around'.push p) content v :=
      fun p v => @ihc (around.push p) (around'.push p) hwidth v
    have hasked := hblind.opening name attributes (around'.showing (x, s))
      (around.showing (x, s)) rfl
    cases h.takes name attributes (around.showing (x, s)) with
    | layout he =>
      rw [eval_layout he, eval_layout he]
      dsimp only
      rw [hcontent]
    | passed he ha =>
      rw [eval_passed he ha, eval_passed he (hasked.trans ha)]
      exact hcontent .nothing _
    | told he ha hmode =>
      rw [eval_told he ha hmode, eval_told he (hasked.trans ha) hmode]
      dsimp only
      rw [hcontent]
      exact congrArg (Prod.mk · _) (hblind.closing _ none _ _ rfl)
    | @captured k y mode he ha hmode =>
      let inner : Converter κ := { around with saved := s :: around.saved }
      let inner' : Converter κ := { around' with saved := s :: around'.saved }
      have hfresh : around.fresh mode = around'.fresh mode :=
        congrArg (Session.new · mode) hwidth
      have hin : ∀ v, evalAll (some h) (inner.push (.client k)) content v =
          evalAll (some h) (inner'.push (.client k)) content v :=
        @ihc (inner.push (.client k)) (inner'.push (.client k)) hwidth
      rw [eval_captured he ha hmode, eval_captured he (hasked.trans ha) hmode]
      dsimp only
      rw [hin, hfresh]
      exact congrArg (Prod.mk · _) (hblind.closing k _ _ _ rfl)

theorem evalAll_client (hblind : h.Blind) (s s' : Session) :
    (evalAll (some h) around content (x, s)).1 = (evalAll (some h) around content (x, s')).1 := by
  induction content using contentInduction generalizing around x s s' with
  | nil => rfl
  | characters t rest ih => exact ih _ _
  | raw pieces rest ih => exact ih _ _
  | element name attributes content rest ihc ih =>
    suffices heval : (eval (some h) around (element name attributes content) (x, s)).1 =
        (eval (some h) around (element name attributes content) (x, s')).1 by
      rw [evalAll, evalAll]
      generalize eval (some h) around (element name attributes content) (x, s) = u at heval
      generalize eval (some h) around (element name attributes content) (x, s') = u' at heval
      obtain ⟨y, t⟩ := u
      obtain ⟨y', t'⟩ := u'
      cases heval
      exact ih t t'
    have hasked := hblind.opening name attributes (around.showing (x, s'))
      (around.showing (x, s)) rfl
    cases h.takes name attributes (around.showing (x, s)) with
    | @layout e he =>
      rw [eval_layout he, eval_layout he]
      let opened := s.openElement e attributes
      let opened' := s'.openElement e attributes
      have hends : evalAll (some h) (around.push (.ofAction opened.2)) content (x, opened.1) =
          evalAll (some h) (around.push (.ofAction opened'.2)) content (x, opened.1) :=
        evalAll_around hblind (by rfl) _
      exact (congrArg Prod.fst hends).trans (ihc opened.1 opened'.1)
    | passed he ha =>
      rw [eval_passed he ha, eval_passed he (hasked.trans ha)]
      exact ihc _ _
    | told he ha hmode =>
      rw [eval_told he ha hmode, eval_told he (hasked.trans ha) hmode]
      exact hblind.closing _ none _ _ (ihc s s')
    | @captured k y mode he ha hmode =>
      let inner : Converter κ := { around with saved := s :: around.saved }
      let inner' : Converter κ := { around with saved := s' :: around.saved }
      have hcontent : evalAll (some h) (inner.push (.client k)) content (y, around.fresh mode) =
          evalAll (some h) (inner'.push (.client k)) content (y, around.fresh mode) :=
        evalAll_around hblind (by rfl) _
      rw [eval_captured he ha hmode, eval_captured he (hasked.trans ha) hmode]
      dsimp only
      rw [hcontent]
      exact hblind.closing k _ _ _ rfl

end Xml.Tree

namespace Operation
open Tree
variable {client : Client σ κ} {h : Habit σ κ} {base : Converter κ} {x y : σ} {s : Session}
  {name : Text} {attributes : Attributes} {content : List Tree} {rest : List Event}
  {v : World σ κ}

theorem close_ofAction_ok {action : Option Action} {w : World σ κ}
    (hw : close (some client) (.ofAction action) w = .ok () v) :
    v = { w with converter :=
      { w.converter with session := w.converter.session.closeWith action } } := by
  cases action with
  | none =>
    cases hw
    rfl
  | some a =>
    cases hpermits : w.converter.session.permits a with
    | true =>
      rw [Pending.ofAction, close_layout hpermits] at hw
      cases hw
      rfl
    | false =>
      rw [Pending.ofAction, close_layout_refused hpermits] at hw
      cases hw

section Closings
variable (hf : client.Follows h) (hblind : h.Blind) {k : κ}
include hf hblind

theorem close_told (hmode : h.mode k = none) {w u : World σ κ} (hclient : w.client = u.client) :
    close (some client) (.client k) w = .ok () ⟨h.closing k none u, w.converter⟩ := by
  have hclose := hf.closing k w
  rw [hmode, Converter.handed, Converter.leave, hblind.closing k none w u hclient] at hclose
  exact hclose

theorem close_outermost (hi : base.Idle) {mode : Mode} (hmode : h.mode k = some mode)
    (v : σ × Session) {u : World σ κ} (hclient : v.1 = u.client) :
    close (some client) (.client k) (Converter.showing { base with capturing := true } v) =
      .ok () (base.showing (h.closing k (some v.2.captured) u, base.fresh .markdown)) := by
  let within : Converter κ := { base with capturing := true, session := v.2 }
  have hclose := hf.closing k ⟨v.1, within⟩
  have hended : within.endCapture.2 = { base with session := base.fresh .markdown } := by
    have hlast : within.saved = [] := hi.saved
    rw [Converter.endCapture_last hlast, ← hi.capturing]
    rfl
  rw [hmode, Converter.handed, Converter.endCapture_fst, Converter.leave, hended,
    hblind.closing k _ ⟨v.1, within⟩ u hclient] at hclose
  exact hclose

end Closings

theorem open_outermost (hf : client.Follows h) (hi : base.Idle) (he : Element.ofTag? name = none)
    {k : κ} (ha : h.opening name attributes (base.showing (x, s)) = (some k, y)) {mode : Mode}
    (hmode : h.mode k = some mode) :
    handle (some client) (.openElement name attributes) (base.showing (x, s)) =
      .ok () ((Converter.push (.client k) { base with capturing := true }).showing
        (y, base.fresh mode)) := by
  have hasked := handle_openOffered he hi.listening
    (hf.opening name attributes (base.showing (x, s)))
  rw [ha] at hasked
  rw [hasked]
  simp only [Option.bind_some, hmode, Converter.enter, Converter.beginCapture, Converter.showing,
    hi.capturing, Bool.false_eq_true, if_false, left]
  rfl

theorem feed_isolated (hf : client.Follows h) (hblind : h.Blind) (hi : base.Idle)
    (hv : feed (some client) (eventsOf content ++ rest) (base.showing (x, s)) = .ok () v) :
    ∃ s', feed (some client) rest
      (base.showing ((evalAll (some h) base content (x, s)).1, s')) = .ok () v := by
  induction content using contentInduction generalizing base x s rest with
  | nil => exact ⟨s, hv⟩
  | characters t others ih =>
    have ht : (base.showing (x, s)).converter.characters t =
        (base.showing (x, s.literal t)).converter := by
      simp only [Converter.showing, Converter.characters, hi.raw]
    simp only [eventsOf, events, List.cons_append, List.nil_append] at hv
    rw [feed_cons (handle_characters t), ht] at hv
    exact ih hi hv
  | raw pieces others ih =>
    simp only [eventsOf, List.append_assoc] at hv
    rw [feed_raw pieces _ hi.raw] at hv
    exact ih hi hv
  | element name attributes content others ihc ih =>
    rw [eventsOf_cons_element] at hv
    suffices helement : ∃ s', feed (some client) (eventsOf others ++ rest) (base.showing
        ((eval (some h) base (element name attributes content) (x, s)).1, s')) = .ok () v by
      obtain ⟨s', hs'⟩ := helement
      obtain ⟨s'', hs''⟩ := ih hi hs'
      refine ⟨s'', ?_⟩
      rw [evalAll_client hblind s' (eval (some h) base (element name attributes content) (x, s)).2]
        at hs''
      exact hs''
    have hasked := fun he => handle_openOffered he hi.listening
      (hf.opening name attributes (base.showing (x, s)))
    cases h.takes name attributes (base.showing (x, s)) with
    | @layout e he =>
      let opened := s.openElement e attributes
      have hopen : handle (some client) (.openElement name attributes) (base.showing (x, s)) =
          .ok () ((base.push (.ofAction opened.2)).showing (x, opened.1)) :=
        handle_openLayout attributes he
      rw [feed_cons hopen] at hv
      obtain ⟨s', hs'⟩ := ihc (hi.push _) hv
      obtain ⟨u, hu, hrest⟩ := feed_cons_ok hs'
      rw [handle_close name rfl] at hu
      rw [close_ofAction_ok hu] at hrest
      rw [eval_layout he]
      exact ⟨s'.closeWith opened.2, hrest⟩
    | @passed y he ha =>
      rw [ha] at hasked
      have hopen : handle (some client) (.openElement name attributes) (base.showing (x, s)) =
          .ok () ((base.push .nothing).showing (y, s)) := hasked he
      rw [feed_cons hopen] at hv
      obtain ⟨s', hs'⟩ := ihc (hi.push _) hv
      obtain ⟨u, hu, hrest⟩ := feed_cons_ok hs'
      cases hu
      rw [eval_passed he ha]
      exact ⟨s', hrest⟩
    | @told k y he ha hmode =>
      simp only [ha, Option.bind_some, hmode] at hasked
      have hopen : handle (some client) (.openElement name attributes) (base.showing (x, s)) =
          .ok () ((base.push (.client k)).showing (y, s)) := hasked he
      rw [feed_cons hopen] at hv
      obtain ⟨s', hs'⟩ := ihc (hi.push _) hv
      let w := evalAll (some h) (base.push (.client k)) content (y, s)
      have hend : handle (some client) (.closeElement name)
          ((base.push (.client k)).showing (w.1, s')) =
            .ok () (base.showing (h.closing k none (base.showing w), s')) :=
        (handle_close name rfl).trans (close_told hf hblind hmode rfl)
      rw [feed_cons hend] at hs'
      rw [eval_told he ha hmode]
      exact ⟨s', hs'⟩
    | @captured k y mode he ha hmode =>
      let within : Converter κ := { base with capturing := true }
      let inner : Converter κ := { base with saved := s :: base.saved }
      let w := evalAll (some h) (within.push (.client k)) content (y, base.fresh mode)
      have hattends : Attends (some client) (within.push (.client k)).listening (some h) := by
        have hlistening : (within.push (.client k)).listening = true := hi.listening
        rw [hlistening]
        exact .offered hf
      have hend : handle (some client) (.closeElement name)
          ((within.push (.client k)).showing w) = .ok () (base.showing
            (h.closing k (some w.2.captured) (inner.showing w), base.fresh .markdown)) :=
        (handle_close name rfl).trans (close_outermost hf hblind hi hmode w rfl)
      -- within the capture the converter goes the way of the evaluation
      rw [feed_cons (open_outermost hf hi he ha hmode),
        feed_eventsOf _ hattends (.inr rfl) hi.raw, feed_cons hend] at hv
      have hw : evalAll (some h) (inner.push (.client k)) content (y, base.fresh mode) = w :=
        evalAll_around hblind (by rfl) _
      rw [eval_captured he ha hmode]
      dsimp only
      rw [hw]
      exact ⟨_, hv⟩

end Operation

end DocMarkdown
