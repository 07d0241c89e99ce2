import DocMarkdown.Proofs.Converter.Conversion

/-! One document in two converters with different pasts. A capture has a session of its own, so
that whatever is captured is the same in both. Outside the captures the sessions differ; there it
is enough that each has open the lists that are to be closed in it. -/

namespace DocMarkdown
open Layout Xml Operation

variable {σ κ : Type}

/-- What the client does hangs on nothing but the element, the captured text and its own state. -/
structure Habit.Blind (h : Habit σ κ) : Prop where
  opening : ∀ (name : Text) (attributes : Attributes) (w u : World σ κ), w.client = u.client →
    h.opening name attributes w = h.opening name attributes u
  closing : ∀ (k : κ) (t : Option Text) (w u : World σ κ), w.client = u.client →
    h.closing k t w = h.closing k t u

namespace Pending

def endsList : Pending κ → Bool
  | .layout .endList => true
  | _ => false

inductive Akin : Pending κ → Pending κ → Prop
  | same (p : Pending κ) : Akin p p
  | rawHtml (block block' : Bool) :
    Akin (.layout (.endRawHtml block)) (.layout (.endRawHtml block'))

theorem Akin.endsList_eq {p q : Pending κ} (h : Akin p q) : p.endsList = q.endsList := by
  cases h <;> rfl

theorem Akin.openElement (s s' : Session) (e : Element) (attributes : Attributes) :
    Akin (.ofAction (s.openElement e attributes).2 : Pending κ)
      (.ofAction (s'.openElement e attributes).2) := by
  cases e with
  | rawHtml => exact .rawHtml _ _
  | _ => exact .same _

theorem endsList_ofAction (action : Option Action) :
    (ofAction action : Pending κ).endsList = true ↔ action = some .endList := by
  cases action with
  | none => simp [ofAction, endsList]
  | some a => cases a <;> simp [ofAction, endsList]

theorem captures_ofAction (h : Option (Habit σ κ)) (action : Option Action) :
    (ofAction action).captures h = false := by
  cases action <;> rfl

end Pending

/-- The part of a converter that belongs to an open capture and to those within it. -/
structure Enclosed (κ : Type) where
  session : Session
  saved : List Session := []
  pending : List (Pending κ) := []
  raw : Option (List Text)

namespace Enclosed

def on (c : Converter κ) (i : Enclosed κ) : Converter κ :=
  { c with
    session := i.session
    saved := i.saved ++ c.saved
    pending := i.pending ++ c.pending
    raw := i.raw }

def Even (h : Habit σ κ) (i : Enclosed κ) : Prop :=
  i.saved.length = i.pending.countP (Pending.captures (some h))

end Enclosed

def Converter.Serves (config : Config) (c : Converter κ) : Prop :=
  c.config = config ∧ c.listening = true

theorem Pending.captures_client (h : Habit σ κ) (k : κ) :
    (Pending.client k).captures (some h) = (h.mode k).isSome := rfl

theorem Pending.captures_left (h : Habit σ κ) (k : Option κ) :
    (left k).captures (some h) = (k.bind h.mode).isSome := by
  cases k <;> rfl

theorem Converter.Serves.begun_enclosed {config : Config} {c : Converter κ}
    (hc : c.Serves config) (mode : Mode) (k : κ) :
    (c.beginCapture mode).push (.client k) =
      Enclosed.on ((c.beginCapture mode).push (.client k))
        { session := .new config.indentWidth mode, raw := c.raw } := by
  rw [← hc.1]
  rfl

theorem Converter.Serves.of_circumstances {config : Config} {c d : Converter κ}
    (h : d.circumstances = c.circumstances) (hc : c.Serves config) : d.Serves config :=
  ⟨(congrArg Circumstances.config h).trans hc.1,
    (congrArg Circumstances.listening h).trans hc.2⟩

section Local
variable {client : Client σ κ} {h : Habit σ κ} {config : Config} {x : σ} {i : Enclosed κ}
  {a : Converter κ} {v : World σ κ}

theorem Enclosed.open_local (hf : client.Follows h) (hb : h.Blind) (hi : i.Even h) (name : Text)
    (attributes : Attributes) (x : σ) (config : Config) :
    ∃ (y : σ) (i' : Enclosed κ), i'.Even h ∧ ∀ b : Converter κ, b.Serves config →
      b.capturing = true →
      handle (some client) (.openElement name attributes) ⟨x, i.on b⟩ = .ok () ⟨y, i'.on b⟩ := by
  cases he : Element.ofTag? name with
  | some e =>
    let opened := i.session.openElement e attributes
    refine ⟨x, { i with session := opened.1, pending := .ofAction opened.2 :: i.pending }, ?_,
      fun b _ _ => handle_openLayout attributes he⟩
    simpa [Even, Pending.captures_ofAction] using hi
  | none =>
    let around : Converter κ := .new config
    have hasked : ∀ b : Converter κ, b.Serves config →
        handle (some client) (.openElement name attributes) ⟨x, i.on b⟩ =
          .ok () ⟨(h.opening name attributes ⟨x, around⟩).2,
            ((i.on b).enter ((h.opening name attributes ⟨x, around⟩).1.bind h.mode)).push
              (left (h.opening name attributes ⟨x, around⟩).1)⟩ := by
      intro b hserves
      rw [handle_openOffered he hserves.2 (hf.opening name attributes ⟨x, i.on b⟩),
        hb.opening name attributes ⟨x, i.on b⟩ ⟨x, around⟩ rfl]
    generalize h.opening name attributes ⟨x, around⟩ = asked at hasked
    obtain ⟨k, y⟩ := asked
    cases hmode : k.bind h.mode with
    | none =>
      refine ⟨y, { i with pending := left k :: i.pending }, ?_, fun b hserves _ => ?_⟩
      · simpa [Even, Pending.captures_left, hmode] using hi
      · rw [hasked b hserves, hmode]
        rfl
    | some mode =>
      obtain ⟨k, rfl, hk⟩ := Option.bind_eq_some_iff.mp hmode
      refine ⟨y, { i with
          session := .new config.indentWidth mode
          saved := i.session :: i.saved
          pending := .client k :: i.pending }, ?_, fun b hserves hcap => ?_⟩
      · simpa [Even, Pending.captures_client, hk] using hi
      · rw [hasked b hserves, hmode]
        simp only [Converter.enter, Converter.beginCapture, Enclosed.on, Converter.push, hcap,
          if_true, Converter.fresh, hserves.1, left]
        rfl

theorem Enclosed.close_local (hf : client.Follows h) (hb : h.Blind) (hi : i.Even h)
    {p : Pending κ} {pending : List (Pending κ)} (hp : i.pending = p :: pending) (name : Text)
    (hv : handle (some client) (.closeElement name) ⟨x, i.on a⟩ = .ok () v) :
    ∃ (y : σ) (i' : Enclosed κ), i'.Even h ∧ ∀ b : Converter κ,
      handle (some client) (.closeElement name) ⟨x, i.on b⟩ = .ok () ⟨y, i'.on b⟩ := by
  have hpending : ∀ b : Converter κ, (i.on b).pending = p :: (pending ++ b.pending) := by
    intro b
    simp only [on, hp, List.cons_append]
  simp only [Even, hp, List.countP_cons] at hi
  cases p with
  | nothing =>
    exact ⟨x, { i with pending }, hi, fun b => (handle_close name (hpending b)).trans rfl⟩
  | layout action =>
    have hpermits : i.session.permits action = true := by
      rw [handle_close name (hpending a)] at hv
      cases hperm : i.session.permits action with
      | true => rfl
      | false =>
        rw [close_layout_refused hperm] at hv
        cases hv
    refine ⟨x, { i with pending, session := i.session.close action }, hi, fun b => ?_⟩
    exact (handle_close name (hpending b)).trans (close_layout hpermits)
  | client k =>
    rw [Pending.captures_client] at hi
    have hclose : ∀ b : Converter κ,
        handle (some client) (.closeElement name) ⟨x, i.on b⟩ =
          .ok () ⟨h.closing k (Converter.handed (h.mode k) (on b { i with pending })) ⟨x, i.on a⟩,
            Converter.leave (h.mode k) (on b { i with pending })⟩ := by
      intro b
      rw [handle_close name (hpending b),
        ← hb.closing k _ ⟨x, on b { i with pending }⟩ ⟨x, i.on a⟩ rfl]
      exact hf.closing k ⟨x, on b { i with pending }⟩
    cases hmode : h.mode k with
    | none =>
      rw [hmode] at hi hclose
      exact ⟨h.closing k none ⟨x, i.on a⟩, { i with pending }, hi, hclose⟩
    | some mode =>
      rw [hmode] at hi hclose
      obtain ⟨outer, saved, hsaved⟩ := List.exists_cons_of_length_eq_add_one hi
      have hi' : saved.length = pending.countP (Pending.captures (some h)) := by
        rw [hsaved] at hi
        exact Nat.succ.inj hi
      let i' : Enclosed κ :=
        { i with pending, session := outer.write i.session.captured, saved }
      refine ⟨h.closing k (some i.session.captured) ⟨x, i.on a⟩, i', hi', fun b => ?_⟩
      have hon : (on b { i with pending }).saved = outer :: (saved ++ b.saved) := by
        simp only [on, hsaved, List.cons_append]
      rw [hclose b, Converter.handed, Converter.leave, Converter.endCapture_fst,
        Converter.endCapture_outer hon]
      rfl

/-- While a capture is open, an event does the same whatever there is around the capture. -/
theorem Enclosed.handle_local (hf : client.Follows h) (hb : h.Blind) (hi : i.Even h)
    (ha : a.Serves config) (hcap : a.capturing = true) {e : Event}
    (hclose : e.closes = true → i.pending ≠ [])
    (hv : handle (some client) e ⟨x, i.on a⟩ = .ok () v) :
    ∃ (y : σ) (i' : Enclosed κ), i'.Even h ∧ v = ⟨y, i'.on a⟩ ∧ ∀ b : Converter κ,
      b.Serves config → b.capturing = true →
      handle (some client) e ⟨x, i.on b⟩ = .ok () ⟨y, i'.on b⟩ := by
  have hlocal : ∃ (y : σ) (i' : Enclosed κ), i'.Even h ∧ ∀ b : Converter κ, b.Serves config →
      b.capturing = true → handle (some client) e ⟨x, i.on b⟩ = .ok () ⟨y, i'.on b⟩ := by
    cases e with
    | openElement name attributes => exact open_local hf hb hi name attributes x config
    | closeElement name =>
      obtain ⟨p, pending, hp⟩ := List.exists_cons_of_ne_nil (hclose rfl)
      obtain ⟨y, i', hi', hon⟩ := close_local hf hb hi hp name hv
      exact ⟨y, i', hi', fun b _ _ => hon b⟩
    | characters t =>
      cases hraw : i.raw with
      | none =>
        refine ⟨x, { i with session := i.session.literal t }, hi, fun b _ _ => ?_⟩
        simp only [handle_characters, Converter.characters, on, hraw]
      | some pieces =>
        refine ⟨x, { i with raw := some (t :: pieces) }, hi, fun b _ _ => ?_⟩
        simp only [handle_characters, Converter.characters, on, hraw]
    | openRaw => exact ⟨x, { i with raw := some [] }, hi, fun b _ _ => handle_openRaw⟩
    | closeRaw =>
      let content := (i.raw.getD []).reverse.flatten
      exact ⟨x, { i with session := i.session.rawBlock content, raw := none }, hi,
        fun b _ _ => handle_closeRaw⟩
  obtain ⟨y, i', hi', hon⟩ := hlocal
  have hva := hv.symm.trans (hon a ha hcap)
  cases hva
  exact ⟨y, i', hi', rfl, hon⟩

end Local

structure Pending.Paired (h : Habit σ κ) (ps qs : List (Pending κ)) : Prop where
  akin : List.Forall₂ Akin ps qs
  free : ∀ p ∈ ps, p.captures (some h) = false

/-- Two converters side by side in one document, either outside all captures or in the same one. -/
inductive Alike (h : Habit σ κ) (config : Config) : World σ κ → World σ κ → Prop
  | outside {x : σ} {a b : Converter κ} (ha : a.Serves config) (hb : b.Serves config)
      (hraw : a.raw = b.raw) (hp : Pending.Paired h a.pending b.pending)
      (hlists : b.pending.countP Pending.endsList ≤ b.session.context.lists.length) :
      Alike h config ⟨x, a⟩ ⟨x, b⟩
  | within {x : σ} {a b : Converter κ} {i : Enclosed κ} (hi : i.Even h) (ha : a.Serves config)
      (hb : b.Serves config) (hca : a.capturing = true) (hcb : b.capturing = true) {k : κ}
      (hk : (h.mode k).isSome = true) {ps qs : List (Pending κ)} (hps : a.pending = .client k :: ps)
      (hqs : b.pending = .client k :: qs) (hp : Pending.Paired h ps qs)
      (hlists : qs.countP Pending.endsList = 0) :
      Alike h config ⟨x, i.on a⟩ ⟨x, i.on b⟩

namespace Pending.Paired
variable {h : Habit σ κ} {ps qs : List (Pending κ)}

theorem cons (hp : Paired h ps qs) {p q : Pending κ} (hpq : Akin p q)
    (hfree : p.captures (some h) = false) : Paired h (p :: ps) (q :: qs) :=
  ⟨.cons hpq hp.akin, List.forall_mem_cons.mpr ⟨hfree, hp.free⟩⟩

theorem countP_eq (hp : Paired h ps qs) : ps.countP endsList = qs.countP endsList := by
  obtain ⟨hakin, -⟩ := hp
  induction hakin with
  | nil => rfl
  | cons hpq _ ih => rw [List.countP_cons, List.countP_cons, hpq.endsList_eq, ih]

end Pending.Paired

section Step
variable {client : Client σ κ} {h : Habit σ κ} {config : Config} {x : σ} {a b : Converter κ}
  {v : World σ κ}

theorem Alike.close_within (hf : client.Follows h) (hblind : h.Blind) {i : Enclosed κ}
    (hpending : i.pending = []) (ha : a.Serves config) (hb : b.Serves config)
    {k : κ} (hk : (h.mode k).isSome = true) {ps qs : List (Pending κ)}
    (hps : a.pending = .client k :: ps) (hqs : b.pending = .client k :: qs)
    (hp : Pending.Paired h ps qs) (hlists : qs.countP Pending.endsList = 0) (name : Text) :
    ∃ w u, handle (some client) (.closeElement name) ⟨x, i.on a⟩ = .ok () w ∧
      handle (some client) (.closeElement name) ⟨x, i.on b⟩ = .ok () u ∧ Alike h config w u := by
  obtain ⟨mode, hmode⟩ := Option.isSome_iff_exists.mp hk
  have hclose : ∀ {c : Converter κ} {rest : List (Pending κ)}, c.pending = .client k :: rest →
      handle (some client) (.closeElement name) ⟨x, i.on c⟩ =
        .ok () ⟨h.closing k (some i.session.captured) ⟨x, a⟩,
          Converter.leave (some mode) { i.on c with pending := rest }⟩ := by
    intro c rest hc
    have htop : (i.on c).pending = .client k :: rest := by
      rw [Enclosed.on, hpending]
      exact hc
    have hclosing := hf.closing k ⟨x, { i.on c with pending := rest }⟩
    rw [hmode, Converter.handed, Converter.endCapture_fst] at hclosing
    rw [handle_close name htop,
      ← hblind.closing k _ ⟨x, { i.on c with pending := rest }⟩ ⟨x, a⟩ rfl]
    exact hclosing
  refine ⟨_, _, hclose hps, hclose hqs, ?_⟩
  obtain ⟨hca, hrawa, hpa⟩ := Converter.leave_keeps (some mode) { i.on a with pending := ps }
  obtain ⟨hcb, hrawb, hpb⟩ := Converter.leave_keeps (some mode) { i.on b with pending := qs }
  refine .outside (.of_circumstances hca ha) (.of_circumstances hcb hb)
    (hrawa.trans hrawb.symm) ?_ ?_
  · rw [hpa, hpb]
    exact hp
  · rw [hpb, hlists]
    exact Nat.zero_le _

section Outside
variable (ha : a.Serves config) (hb : b.Serves config) (hraw : a.raw = b.raw)
  (hp : Pending.Paired h a.pending b.pending)
include ha hb hraw hp

theorem Alike.layout_outside (action action' : Action)
    (hlists : b.pending.countP Pending.endsList + (if action' = .endList then 1 else 0) ≤
      b.session.context.lists.length) {w : World σ κ}
    (hw : close (some client) (.layout action) ⟨x, a⟩ = .ok () w) :
    ∃ u, close (some client) (.layout action') ⟨x, b⟩ = .ok () u ∧ Alike h config w u := by
  have hpermits : b.session.permits action' = true := by
    refine Session.permits_of_pos fun hl => ?_
    rw [if_pos hl] at hlists
    omega
  refine ⟨_, close_layout hpermits, ?_⟩
  cases hperm : a.session.permits action with
  | false =>
    rw [close_layout_refused hperm] at hw
    cases hw
  | true =>
    rw [close_layout hperm] at hw
    cases hw
    refine .outside ha hb hraw hp ?_
    have hlength := b.session.length_lists_closeWith (some action')
    change b.pending.countP Pending.endsList ≤
      (b.session.closeWith (some action')).context.lists.length
    simp only [Option.some.injEq] at hlength
    omega

variable (hlists : b.pending.countP Pending.endsList ≤ b.session.context.lists.length)
  (hf : client.Follows h) (hblind : h.Blind)
include hlists hf hblind

theorem Alike.open_outside (name : Text) (attributes : Attributes)
    (hshelter : capturesAt (some h) name attributes ⟨x, a⟩ = true →
      a.pending.countP Pending.endsList = 0) :
    ∃ w u, handle (some client) (.openElement name attributes) ⟨x, a⟩ = .ok () w ∧
      handle (some client) (.openElement name attributes) ⟨x, b⟩ = .ok () u ∧
      Alike h config w u := by
  cases he : Element.ofTag? name with
  | some e =>
    refine ⟨_, _, handle_openLayout attributes he, handle_openLayout attributes he,
      .outside ha hb hraw (hp.cons (.openElement a.session b.session e attributes)
        (Pending.captures_ofAction _ _)) ?_⟩
    have hlength := b.session.length_lists_openElement e attributes
    change List.countP Pending.endsList
        (.ofAction (b.session.openElement e attributes).2 :: b.pending) ≤
      (b.session.openElement e attributes).1.context.lists.length
    simp only [List.countP_cons, Pending.endsList_ofAction]
    omega
  | none =>
    have hsame : h.opening name attributes ⟨x, b⟩ = h.opening name attributes ⟨x, a⟩ :=
      hblind.opening name attributes _ _ rfl
    have hopenA := handle_openOffered he ha.2 (hf.opening name attributes ⟨x, a⟩)
    have hopenB := handle_openOffered he hb.2 (hf.opening name attributes ⟨x, b⟩)
    rw [hsame] at hopenB
    simp only [capturesAt, he, Habit.captureAt] at hshelter
    generalize h.opening name attributes ⟨x, a⟩ = asked at *
    obtain ⟨k, y⟩ := asked
    refine ⟨_, _, hopenA, hopenB, ?_⟩
    cases hmode : k.bind h.mode with
    | none =>
      have hfree : (left k).captures (some h) = false :=
        (Pending.captures_left h k).trans (congrArg Option.isSome hmode)
      have hends : (left k).endsList = false := by cases k <;> rfl
      refine .outside ha hb hraw (hp.cons (.same _) hfree) ?_
      simpa [Converter.push, Converter.enter, hends] using hlists
    | some mode =>
      obtain ⟨k, rfl, hk⟩ := Option.bind_eq_some_iff.mp hmode
      rw [hmode] at hshelter
      have hends : b.pending.countP Pending.endsList = 0 := hp.countP_eq ▸ hshelter rfl
      change Alike h config ⟨y, (a.beginCapture mode).push (.client k)⟩
        ⟨y, (b.beginCapture mode).push (.client k)⟩
      rw [ha.begun_enclosed mode k, hb.begun_enclosed mode k, ← hraw]
      exact .within rfl ha hb rfl rfl (congrArg Option.isSome hk) rfl rfl hp hends

theorem Alike.close_outside (name : Text) {w : World σ κ}
    (hw : handle (some client) (.closeElement name) ⟨x, a⟩ = .ok () w) :
    ∃ u, handle (some client) (.closeElement name) ⟨x, b⟩ = .ok () u ∧ Alike h config w u := by
  cases hps : a.pending with
  | nil =>
    rw [handle_closeEmpty name hps] at hw
    cases hw
  | cons p ps =>
    obtain ⟨hakin, hfree⟩ := hp
    rw [hps] at hakin hfree
    obtain ⟨q, qs, hpq, hakin, hqs⟩ := List.forall₂_cons_left_iff.mp hakin
    obtain ⟨hp, hfree⟩ := List.forall_mem_cons.mp hfree
    rw [handle_close name hps] at hw
    rw [handle_close name hqs]
    rw [hqs, List.countP_cons, ← hpq.endsList_eq] at hlists
    have hpaired : Pending.Paired h ps qs := ⟨hakin, hfree⟩
    have hrest : ∀ (x : σ), qs.countP Pending.endsList ≤ b.session.context.lists.length →
        Alike h config ⟨x, { a with pending := ps }⟩ ⟨x, { b with pending := qs }⟩ :=
      fun _ hcount => .outside ha hb hraw hpaired hcount
    cases hpq with
    | rawHtml block block' =>
      -- whether the element began a block was decided in its own session, and may differ
      exact Alike.layout_outside (a := { a with pending := ps }) (b := { b with pending := qs })
        ha hb hraw hpaired _ (.endRawHtml block') hlists hw
    | same =>
      cases p with
      | nothing =>
        cases hw
        exact ⟨_, rfl, hrest x hlists⟩
      | layout action =>
        refine Alike.layout_outside (a := { a with pending := ps }) (b := { b with pending := qs })
          ha hb hraw hpaired action action ?_ hw
        have hends : (Pending.layout action : Pending κ).endsList = true ↔ action = .endList :=
          (Pending.endsList_ofAction (some action)).trans (by rw [Option.some.injEq])
        simp only [← hends]
        exact hlists
      | client k =>
        have hmode : h.mode k = none := by simpa [Pending.captures_client] using hp
        have hclosing : ∀ c : Converter κ, client.closing k ⟨x, c⟩ =
            .ok () ⟨h.closing k none ⟨x, a⟩, c⟩ := by
          intro c
          rw [hf.closing k ⟨x, c⟩, hmode, Converter.handed, hblind.closing k none ⟨x, c⟩ ⟨x, a⟩ rfl]
          rfl
        have hclosed := (hclosing { a with pending := ps }).symm.trans hw
        cases hclosed
        exact ⟨_, hclosing { b with pending := qs }, hrest _ hlists⟩

end Outside

theorem Alike.step (hf : client.Follows h) (hblind : h.Blind) {w u : World σ κ}
    (halike : Alike h config w u) {e : Event} (hw : handle (some client) e w = .ok () v)
    (hshelter : ∀ name attributes, e = .openElement name attributes →
      capturesAt (some h) name attributes w = true →
      (∀ p ∈ w.converter.pending, p.captures (some h) = false) →
      w.converter.pending.countP Pending.endsList = 0) :
    ∃ u', handle (some client) e u = .ok () u' ∧ Alike h config v u' := by
  cases halike with
  | @within x a b i hi ha hb hca hcb k hk ps qs hps hqs hp hlists =>
    -- only the end of the captured element itself is seen from around the capture
    by_cases hend : e.closes = true ∧ i.pending = []
    · obtain ⟨name, rfl⟩ := Event.close_of_closes hend.1
      obtain ⟨w', u', hw', hu', halike⟩ :=
        Alike.close_within (x := x) hf hblind hend.2 ha hb hk hps hqs hp hlists name
      cases hw.symm.trans hw'
      exact ⟨u', hu', halike⟩
    · obtain ⟨y, i', hi', rfl, hu⟩ :=
        Enclosed.handle_local hf hblind hi ha hca (not_and.mp hend) hw
      exact ⟨_, hu b hb hcb, .within hi' ha hb hca hcb hk hps hqs hp hlists⟩
  | @outside x a b ha hb hraw hp hlists =>
    cases e with
    | openElement name attributes =>
      obtain ⟨w', u', hw', hu', halike⟩ := Alike.open_outside (x := x) ha hb hraw hp hlists hf
        hblind name attributes fun hcaptured => hshelter name attributes rfl hcaptured hp.free
      cases hw.symm.trans hw'
      exact ⟨u', hu', halike⟩
    | closeElement name => exact Alike.close_outside ha hb hraw hp hlists hf hblind name hw
    | characters t =>
      cases hw
      refine ⟨_, handle_characters t, ?_⟩
      cases hr : b.raw with
      | none =>
        simp only [Converter.characters, hr, hraw.trans hr]
        refine .outside ha hb rfl hp ?_
        rw [Session.literal_lists]
        exact hlists
      | some pieces =>
        simp only [Converter.characters, hr, hraw.trans hr]
        exact .outside ha hb rfl hp hlists
    | openRaw =>
      cases hw
      exact ⟨_, handle_openRaw, .outside ha hb rfl hp hlists⟩
    | closeRaw =>
      cases hw
      refine ⟨_, handle_closeRaw, .outside ha hb rfl hp ?_⟩
      simp only [Converter.closeRaw, Session.rawBlock_lists]
      exact hlists

theorem Alike.client_eq {w u : World σ κ} (halike : Alike h config w u) : w.client = u.client := by
  cases halike <;> rfl

end Step
end DocMarkdown
