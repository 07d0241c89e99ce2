import DocMarkdown.Proofs.Client.Chronicle
import Mathlib

/-! Aborts stay within the conversion that they end. Clients work on the converter by programs, to
any nesting of conversions, and all conversions share one place for a parser. Every operation leads
from a history that is lawful, and that the converter agrees with, to such a history, whether it
stops or not. -/

namespace DocMarkdown
open Layout Xml Operation

variable {σ κ α β : Type} {config : Config} {before : List Malformed}

namespace World

/-- The converter agrees with the history. The reports from `before` the history come last. -/
structure Abides (config : Config) (before : List Malformed) (w : World (σ × History) κ) :
    Prop where
  lawful : w.client.2.Lawful
  running : w.converter.running = w.client.2.registered.isSome
  reports : w.converter.reports = (if config.strict then [] else w.client.2.faults) ++ before
  config : w.converter.config = config

structure Leads (config : Config) (before : List Malformed) (kept : List Nat)
    (w v : World (σ × History) κ) : Prop where
  abides : v.Abides config before
  active : v.client.2.active = w.client.2.active
  later : ∃ later, v.client.2 = later ++ w.client.2 ∧
    ∀ x ∈ later, ∀ n ∈ kept, x.conversion? ≠ some n

namespace Leads
variable {kept kept' : List Nat} {w v u : World (σ × History) κ}

theorem still (h : w.Abides config before) (hhistory : v.client.2 = w.client.2)
    (hc : v.converter.circumstances = w.converter.circumstances) :
    w.Leads config before kept v := by
  refine ⟨⟨?_, ?_, ?_, (congrArg Circumstances.config hc).trans h.config⟩, ?_, [], hhistory, nofun⟩
  · rw [hhistory]
    exact h.lawful
  · rw [hhistory]
    exact (congrArg Circumstances.running hc).trans h.running
  · rw [hhistory]
    exact (congrArg Circumstances.reports hc).trans h.reports
  · rw [hhistory]

theorem refl (h : w.Abides config before) : w.Leads config before kept w := still h rfl rfl

theorem trans (h : w.Leads config before kept v) (h' : v.Leads config before kept u) :
    w.Leads config before kept u := by
  obtain ⟨later, hv, hlater⟩ := h.later
  obtain ⟨later', hu, hlater'⟩ := h'.later
  refine ⟨h'.abides, h'.active.trans h.active, later' ++ later, ?_, ?_⟩
  · rw [hu, hv, List.append_assoc]
  · exact fun x hx => (List.mem_append.mp hx).elim (hlater' x) (hlater x)

theorem mono (h : w.Leads config before kept v) (hkept : kept' ⊆ kept) :
    w.Leads config before kept' v := by
  obtain ⟨later, hv, hlater⟩ := h.later
  exact ⟨h.abides, h.active, later, hv, fun x hx n hn => hlater x hx n (hkept hn)⟩

theorem handledBy (h : w.Leads config before kept v) {n : Nat} (hn : n ∈ kept) :
    v.client.2.handledBy n = w.client.2.handledBy n := by
  obtain ⟨later, hv, hlater⟩ := h.later
  rw [hv, History.handledBy_append,
    History.handledBy_of_forall_ne fun x hx => hlater x hx n hn, List.append_nil]

theorem mem (h : w.Leads config before kept v) {x : Occurrence} (hx : x ∈ w.client.2) :
    x ∈ v.client.2 := by
  obtain ⟨later, hv, -⟩ := h.later
  exact hv ▸ List.mem_append_right _ hx

theorem step (h : w.Abides config before) {x : Occurrence} (hx : w.client.2.Allows x)
    {c : Converter κ} (hactive : History.active (x :: w.client.2) = w.client.2.active)
    (hrunning : c.running = (History.registered (x :: w.client.2)).isSome)
    (hreports : c.reports =
      (if config.strict then [] else x.fault?.toList) ++ w.converter.reports)
    (hconfig : c.config = w.converter.config) (hapart : ∀ n ∈ kept, x.conversion? ≠ some n) :
    w.Leads config before kept ⟨(w.client.1, x :: w.client.2), c⟩ := by
  refine ⟨⟨h.lawful.cons hx, hrunning, ?_, hconfig.trans h.config⟩, hactive, [x], rfl,
    List.forall_mem_singleton.mpr hapart⟩
  rw [hreports, h.reports, History.faults_cons]
  cases config.strict with
  | true => rfl
  | false => exact (List.append_assoc ..).symm

theorem step_faultless (h : w.Abides config before) {x : Occurrence} (hx : w.client.2.Allows x)
    (hnone : x.fault? = none) {c : Converter κ}
    (hactive : History.active (x :: w.client.2) = w.client.2.active)
    (hrunning : c.running = (History.registered (x :: w.client.2)).isSome)
    (hreports : c.reports = w.converter.reports) (hconfig : c.config = w.converter.config)
    (hapart : ∀ n ∈ kept, x.conversion? ≠ some n) :
    w.Leads config before kept ⟨(w.client.1, x :: w.client.2), c⟩ :=
  step h hx hactive hrunning (by simp [hreports, hnone]) hconfig hapart

end Leads
end World

structure History.Explains (t : History) (stop : Stop) : Prop where
  aborted : stop = .aborted ↔ t.head? = some .aborted
  malformed : ∀ m, stop = .malformed m → ∃ n, .faulted n m ∈ t

theorem History.head_ne_aborted {t : History} (h : ¬ t.Stopping) : t.head? ≠ some .aborted := by
  intro hhead
  obtain ⟨earlier, rfl⟩ := List.head?_eq_some_iff.mp hhead
  exact h trivial

theorem History.Explains.ended {t : History} {stop : Stop} (h : t.Explains stop)
    (hstop : stop ≠ .aborted) (n : Nat) (result : Except Stop Unit) :
    History.Explains (.ended n result :: t) stop := by
  refine ⟨iff_of_false hstop (by simp), fun m hm => ?_⟩
  obtain ⟨k, hk⟩ := h.malformed m hm
  exact ⟨k, List.mem_cons_of_mem _ hk⟩

namespace Operation

/-- From wherever the converter agrees with the history, and no conversion is about to end, the
operation leads to such a place again, or stops for a reason that the history tells. -/
def Orderly (config : Config) (before : List Malformed) (p : Chronicled σ κ α) : Prop :=
  ∀ w : World (σ × History) κ, w.Abides config before → ¬ w.client.2.Stopping →
    match p w with
    | .ok _ v => w.Leads config before w.client.2.active v ∧ ¬ v.client.2.Stopping
    | .error stop v => w.Leads config before w.client.2.active v ∧ v.client.2.Explains stop

namespace Orderly
variable {p : Chronicled σ κ α} {client : Option (Client (σ × History) κ)}

theorem pure (a : α) : Orderly config before (Pure.pure a : Chronicled σ κ α) :=
  fun _ hw hs => ⟨.refl hw, hs⟩

theorem emptyPop : Orderly config before (MonadExcept.throw Stop.emptyPop : Chronicled σ κ α) :=
  fun _ hw hs => ⟨.refl hw, iff_of_false nofun (History.head_ne_aborted hs), nofun⟩

theorem bind {f : α → Chronicled σ κ β} (hp : Orderly config before p)
    (hf : ∀ a, Orderly config before (f a)) : Orderly config before (p >>= f) := by
  intro w hw hs
  have hfirst := hp w hw hs
  cases hr : p w with
  | error stop v =>
    rw [hr] at hfirst
    rw [bind_error hr]
    exact hfirst
  | ok a v =>
    rw [hr] at hfirst
    rw [bind_ok hr]
    obtain ⟨hleads, hv⟩ := hfirst
    have hnext := hf a v hleads.abides hv
    rw [hleads.active] at hnext
    cases hu : f a v with
    | ok b u =>
      rw [hu] at hnext
      exact ⟨hleads.trans hnext.1, hnext.2⟩
    | error stop u =>
      rw [hu] at hnext
      exact ⟨hleads.trans hnext.1, hnext.2⟩

theorem get {f : World (σ × History) κ → Chronicled σ κ α} (h : ∀ w, Orderly config before (f w)) :
    Orderly config before (MonadState.get >>= f) := fun w => h w w

theorem final_leads (hp : Orderly config before p) {w : World (σ × History) κ}
    (hw : w.Abides config before) (hs : ¬ w.client.2.Stopping) :
    w.Leads config before w.client.2.active (final (p w)) ∧
      ∀ stop v, p w = .error stop v → v.client.2.Explains stop := by
  have hrun := hp w hw hs
  cases hr : p w with
  | ok a v =>
    rw [hr] at hrun
    refine ⟨hrun.1, fun stop v' h => ?_⟩
    cases h
  | error stop v =>
    rw [hr] at hrun
    refine ⟨hrun.1, fun stop' v' h => ?_⟩
    cases h
    exact hrun.2

theorem change {f : Converter κ → Converter κ} (hf : ∀ c, (f c).circumstances = c.circumstances) :
    Orderly config before (Operation.change f : Chronicled σ κ Unit) :=
  fun _ hw hs => ⟨.still hw rfl (hf _), hs⟩

theorem own (change : σ → σ) : Orderly config before (Chronicle.own change : Chronicled σ κ σ) :=
  fun _ hw hs => ⟨.still hw rfl rfl, hs⟩

theorem endCapture : Orderly config before (Operation.endCapture : Chronicled σ κ Text) := by
  intro w hw hs
  have hchange : Orderly config before
      (Operation.change (·.endCapture.2) : Chronicled σ κ Unit) := by
    refine .change fun c => ?_
    unfold Converter.endCapture
    cases c.saved <;> rfl
  exact hchange w hw hs

theorem abort : Orderly config before (Chronicle.abort : Chronicled σ κ Unit) := by
  intro w hw hs
  have hrunning := hw.running
  rw [Chronicle.abort_run]
  cases hr : w.converter.running with
  | true =>
    rw [hr] at hrunning
    obtain ⟨n, hn⟩ := Option.isSome_iff_exists.mp hrunning.symm
    exact ⟨.step_faultless hw (.aborted hn hs) rfl rfl hw.running rfl rfl
      (fun _ _ h => by cases h), iff_of_true rfl rfl, nofun⟩
  | false =>
    rw [hr] at hrunning
    have hn := Option.isNone_iff_eq_none.mp (Option.isSome_eq_false_iff.mp hrunning.symm)
    exact ⟨.step_faultless hw (.ignored hn hs) rfl rfl hw.running rfl rfl
      (fun _ _ h => by cases h), id⟩

theorem reset : Orderly config before (Chronicle.reset : Chronicled σ κ Unit) :=
  fun _ hw hs =>
    ⟨.step_faultless hw (.reset hs) rfl rfl rfl rfl rfl (fun _ _ h => by cases h), id⟩

def OfClient (config : Config) (before : List Malformed)
    (client : Option (Client (σ × History) κ)) : Prop :=
  ∀ c, client = some c →
    (∀ name attributes, Orderly config before (c.opening name attributes)) ∧
    ∀ k, Orderly config before (c.closing k)

theorem close (hclient : OfClient config before client) (p : Pending κ) :
    Orderly config before (Operation.close client p) := by
  cases p with
  | nothing => exact .pure ()
  | layout a =>
    refine .get fun w => .bind (.change fun _ => rfl) fun _ => ?_
    cases w.converter.session.permits a with
    | true => exact .pure ()
    | false => exact .emptyPop
  | client k =>
    cases client with
    | none => exact .pure ()
    | some c => exact (hclient c rfl).2 k

theorem openOther (hclient : OfClient config before client) (name : Text)
    (attributes : Attributes) :
    Orderly config before (Operation.openOther client name attributes) := by
  refine .get fun w => ?_
  cases client with
  | none => exact .change fun _ => rfl
  | some c =>
    cases w.converter.listening with
    | false => exact .change fun _ => rfl
    | true =>
      refine .bind ((hclient c rfl).1 name attributes) fun k => ?_
      cases k with
      | none => exact .change fun _ => rfl
      | some k => exact .change fun _ => rfl

theorem handle (hclient : OfClient config before client) (e : Event) :
    Orderly config before (Operation.handle client e) := by
  cases e with
  | openElement name attributes =>
    cases he : Element.ofTag? name with
    | some e =>
      simp only [Operation.handle, he]
      exact .change fun _ => rfl
    | none =>
      simp only [Operation.handle, he]
      exact .openOther hclient name attributes
  | closeElement name =>
    refine .get fun w => ?_
    cases w.converter.pending with
    | nil => exact .emptyPop
    | cons p pending => exact .bind (.change fun _ => rfl) fun _ => .close hclient p
  | characters t =>
    refine .change fun c => ?_
    unfold Converter.characters
    cases c.raw <;> rfl
  | openRaw => exact .change fun _ => rfl
  | closeRaw => exact .change fun _ => rfl

end Orderly

section Conversion
variable {client : Option (Client (σ × History) κ)} {n : Nat} {around : List Nat}
  {w v : World (σ × History) κ}

theorem event_orderly (hclient : Orderly.OfClient config before client) (e : Event)
    (hw : w.Abides config before) (hs : ¬ w.client.2.Stopping)
    (hactive : w.client.2.active = n :: around) :
    match (do Chronicle.tell (.handled n e); Operation.handle client e : Chronicled σ κ Unit) w with
    | .ok _ v => w.Leads config before around v ∧ ¬ v.client.2.Stopping ∧
        v.client.2.handledBy n = w.client.2.handledBy n ++ [e]
    | .error stop v => w.Leads config before around v ∧ v.client.2.Explains stop := by
  rw [Chronicle.tell_then]
  have hnot := hw.lawful.not_mem_around hactive
  have htold : w.Leads config before around
      ⟨(w.client.1, .handled n e :: w.client.2), w.converter⟩ :=
    .step_faultless hw (.handled e hactive hs) rfl rfl hw.running rfl rfl
      fun k hk hn => hnot (Option.some.inj hn ▸ hk)
  -- What the handler does belongs neither to this conversion nor to those around it.
  have hhandle := Orderly.handle hclient e _ htold.abides id
  rw [htold.active, hactive] at hhandle
  have hkept : around ⊆ n :: around := List.subset_cons_self n around
  cases hr : Operation.handle client e
      ⟨(w.client.1, .handled n e :: w.client.2), w.converter⟩ with
  | error stop v =>
    rw [hr] at hhandle
    exact ⟨htold.trans (hhandle.1.mono hkept), hhandle.2⟩
  | ok _ v =>
    rw [hr] at hhandle
    obtain ⟨hleads, hv⟩ := hhandle
    refine ⟨htold.trans (hleads.mono hkept), hv, (hleads.handledBy List.mem_cons_self).trans ?_⟩
    simp only [History.handledBy, if_true]

theorem feed_orderly (hclient : Orderly.OfClient config before client) (es : List Event)
    (hw : w.Abides config before) (hs : ¬ w.client.2.Stopping)
    (hactive : w.client.2.active = n :: around) :
    match Chronicle.feed client n es w with
    | .ok _ v => w.Leads config before around v ∧ ¬ v.client.2.Stopping ∧
        v.client.2.handledBy n = w.client.2.handledBy n ++ es
    | .error stop v => w.Leads config before around v ∧ v.client.2.Explains stop := by
  induction es generalizing w with
  | nil => exact ⟨.refl hw, hs, (List.append_nil _).symm⟩
  | cons e rest ih =>
    have hevent := event_orderly hclient e hw hs hactive
    rw [Chronicle.feed, ← bind_assoc]
    cases hr : (do Chronicle.tell (.handled n e); Operation.handle client e :
        Chronicled σ κ Unit) w with
    | error stop v =>
      rw [hr] at hevent
      rw [bind_error hr]
      exact hevent
    | ok _ v =>
      rw [hr] at hevent
      rw [bind_ok hr]
      obtain ⟨hleads, hv, hby⟩ := hevent
      have hrest := ih hleads.abides hv (hleads.active.trans hactive)
      cases hu : Chronicle.feed client n rest v with
      | error stop u =>
        rw [hu] at hrest
        exact ⟨hleads.trans hrest.1, hrest.2⟩
      | ok _ u =>
        rw [hu] at hrest
        refine ⟨hleads.trans hrest.1, hrest.2.1, hrest.2.2.trans ?_⟩
        rw [hby, List.append_assoc, List.singleton_append]

theorem conclude_orderly (d : Document) (e : Ending) (hw : w.Abides config before)
    (hs : ¬ w.client.2.Stopping) (hactive : w.client.2.active = n :: around) :
    match Chronicle.conclude n d e w with
    | .ok _ v => w.Leads config before around v ∧ v.client.2.head? ≠ some .aborted ∧
        v.client.2.handledBy n = w.client.2.handledBy n
    | .error stop v => w.Leads config before around v ∧ v.client.2.Explains stop := by
  cases e with
  | complete => exact ⟨.refl hw, History.head_ne_aborted hs, rfl⟩
  | unusableEncoding name why =>
    exact ⟨.refl hw, iff_of_false (by simp) (History.head_ne_aborted hs), by simp⟩
  | malformed reason place =>
    let m := Malformed.ofReading reason place d
    have hnot := hw.lawful.not_mem_around hactive
    have hleads : ∀ c : Converter κ, c.running = w.converter.running →
        c.reports = (if config.strict then [] else [m]) ++ w.converter.reports →
        c.config = w.converter.config →
        w.Leads config before around ⟨(w.client.1, .faulted n m :: w.client.2), c⟩ :=
      fun c hrunning hreports hconfig => .step hw (.faulted m hactive hs) rfl
        (hrunning.trans hw.running) hreports hconfig fun k hk hn => hnot (Option.some.inj hn ▸ hk)
    have hstrict : w.converter.config.strict = config.strict := by rw [hw.config]
    simp only [Chronicle.conclude, Operation.conclude]
    rw [Chronicle.tell_then, bind_ok get_run]
    cases hc : config.strict with
    | true =>
      simp only [hstrict, hc, if_true]
      refine ⟨hleads _ rfl ?_ rfl, iff_of_false (by simp) (by simp), ?_⟩
      · rw [hc]
        rfl
      · intro k hk
        cases hk
        exact ⟨n, List.mem_cons_self⟩
    | false =>
      simp only [hstrict, hc, Bool.false_eq_true, if_false]
      refine ⟨hleads _ rfl ?_ rfl, by simp, rfl⟩
      rw [hc]
      rfl

theorem delivery_orderly (hclient : Orderly.OfClient config before client) (d : Document)
    (hw : w.Abides config before) (hs : ¬ w.client.2.Stopping)
    (hactive : w.client.2.active = n :: around) :
    match (do Chronicle.feed client n d.read.events; Chronicle.conclude n d d.read.ending :
      Chronicled σ κ Unit) w with
    | .ok _ v => w.Leads config before around v ∧ v.client.2.head? ≠ some .aborted ∧
        v.client.2.handledBy n = w.client.2.handledBy n ++ d.read.events
    | .error stop v => w.Leads config before around v ∧ v.client.2.Explains stop := by
  have hfeed := feed_orderly hclient d.read.events hw hs hactive
  cases hr : Chronicle.feed client n d.read.events w with
  | error stop v =>
    rw [hr] at hfeed
    rw [bind_error hr]
    exact hfeed
  | ok _ v =>
    rw [hr] at hfeed
    rw [bind_ok hr]
    obtain ⟨hleads, hv, hevents⟩ := hfeed
    have hconclude :=
      conclude_orderly d d.read.ending hleads.abides hv (hleads.active.trans hactive)
    cases hu : Chronicle.conclude n d d.read.ending v with
    | ok _ u =>
      rw [hu] at hconclude
      exact ⟨hleads.trans hconclude.1, hconclude.2.1, hconclude.2.2.trans hevents⟩
    | error stop u =>
      rw [hu] at hconclude
      exact ⟨hleads.trans hconclude.1, hconclude.2⟩

theorem end_orderly {d : Document} {start : World (σ × History) κ} {result : Except Stop Unit}
    (hw : w.Abides config before)
    (hstart : start.client.2 = .began w.client.2.begun d :: w.client.2)
    (hleads : start.Leads config before w.client.2.active v)
    (haborted : result = .error .aborted ↔ v.client.2.head? = some .aborted)
    (hevents : result = .ok () → v.client.2.handledBy w.client.2.begun = d.read.events) :
    w.Leads config before w.client.2.active
      ⟨(v.client.1, .ended w.client.2.begun result :: v.client.2), v.converter.finish⟩ := by
  have hactive : v.client.2.active = w.client.2.begun :: w.client.2.active := by
    rw [hleads.active, hstart]
    rfl
  have hbegan : .began w.client.2.begun d ∈ v.client.2 :=
    hleads.mem (hstart ▸ List.mem_cons_self)
  have hapart : ∀ x : Occurrence, x.conversion? = some w.client.2.begun →
      ∀ n ∈ w.client.2.active, x.conversion? ≠ some n := by
    intro x hx n hn hxn
    rw [hx] at hxn
    exact Nat.lt_irrefl _ (Option.some.inj hxn ▸ hw.lawful.active_numbers.1 n hn)
  refine ⟨⟨hleads.abides.lawful.cons (.ended hactive haborted fun hok => ⟨d, hbegan, hevents hok⟩),
    rfl, hleads.abides.reports, hleads.abides.config⟩, ?_, ?_⟩
  · change v.client.2.active.tail = _
    rw [hactive, List.tail_cons]
  · obtain ⟨later, hv, hlater⟩ := hleads.later
    refine ⟨.ended w.client.2.begun result :: (later ++ [.began w.client.2.begun d]), ?_, ?_⟩
    · change _ :: v.client.2 = _
      rw [hv, hstart]
      simp
    · refine List.forall_mem_cons.mpr ⟨hapart _ rfl, List.forall_mem_append.mpr ⟨hlater, ?_⟩⟩
      exact List.forall_mem_singleton.mpr (hapart _ rfl)

theorem convert_orderly (hclient : Orderly.OfClient config before client) (d : Document) :
    Orderly config before (Chronicle.convert client d) := by
  intro w hw hs
  let start : World (σ × History) κ :=
    ⟨(w.client.1, .began w.client.2.begun d :: w.client.2), w.converter.start client.isSome⟩
  have hstart : start.Abides config before :=
    ⟨hw.lawful.cons (.began d hs), rfl, hw.reports, hw.config⟩
  have hnone : w.client.2.handledBy w.client.2.begun = [] :=
    History.handledBy_of_forall_ne fun x hx hn => Nat.lt_irrefl _ (hw.lawful.conversion_lt hx hn)
  have hdelivery := delivery_orderly hclient d hstart id rfl
  simp only [Chronicle.convert]
  cases hr : (do
      Chronicle.feed client w.client.2.begun d.read.events
      Chronicle.conclude w.client.2.begun d d.read.ending : Chronicled σ κ Unit) start with
  | ok _ v =>
    rw [hr] at hdelivery
    obtain ⟨hleads, hhead, hevents⟩ := hdelivery
    refine ⟨end_orderly hw rfl hleads (iff_of_false (by simp) hhead) fun _ => ?_, id⟩
    exact hevents.trans (congrArg (· ++ d.read.events) hnone)
  | error stop v =>
    rw [hr] at hdelivery
    obtain ⟨hleads, hexplains⟩ := hdelivery
    have hend : w.Leads config before w.client.2.active
        ⟨(v.client.1, .ended w.client.2.begun (.error stop) :: v.client.2), v.converter.finish⟩ :=
      end_orderly hw rfl hleads (by simpa using hexplains.aborted) fun hok => by cases hok
    cases stop with
    | aborted => exact ⟨hend, id⟩
    | emptyPop | unusableEncoding | malformed => exact ⟨hend, hexplains.ended (by simp) _ _⟩

end Conversion

theorem perform_orderly (p : Program σ κ α) :
    Orderly config before (p.perform .chronicled) := by
  induction p with
  | done a => exact .pure a
  | own change next ih => exact .bind (.own change) ih
  | beginCapture mode next ih => exact .bind (.change fun _ => rfl) fun _ => ih
  | endCapture next ih => exact .bind .endCapture ih
  | abort next ih => exact .bind .abort fun _ => ih
  | reset next ih => exact .bind .reset fun _ => ih
  | convert d opening closing next ihopening ihclosing ih =>
    -- The handlers of the inner client are parts of the program.
    refine .bind (convert_orderly (fun c hc => ?_) d) fun _ => ih
    cases hc
    exact ⟨fun name attributes => ihopening name attributes, ihclosing⟩
  | convertAlone d next ih => exact .bind (convert_orderly (fun c hc => by cases hc) d) fun _ => ih

theorem handlers_orderly (h : Option (Handlers σ κ)) :
    Orderly.OfClient config before (h.map (·.client .chronicled)) := by
  intro c hc
  obtain ⟨h, -, rfl⟩ := Option.map_eq_some_iff.mp hc
  exact ⟨fun _ _ => perform_orderly _, fun _ => perform_orderly _⟩

/-- Aborts are contained. A conversion whose client works on the converter by programs is told as a
history: to forget it is to convert. No abort leaves a conversion; each of them ends one in the
history, which then has no further event and is neither reported nor raised as malformed, while a
conversion around it goes on with the next of its events. When the conversion is over, whatever it
has come to, no conversion can be aborted and no client is listening, as in every state outside of
conversions.

An element that an aborted conversion has left open is still on the list of pending ends, which the
conversion around goes on with; its end may be handled there, as an event of that conversion. -/
theorem aborts_contained (σ κ : Type) :
    (∀ (handlers : Option (Handlers σ κ)) (d : Document) (w : World σ κ),
      let r := convert (handlers.map (·.client .plain)) d w
      let told := Chronicle.convert (handlers.map (·.client .chronicled)) d
        ⟨(w.client, []), w.converter⟩
      let history := (final told).client.2
      forgotten told = r ∧ (∀ v, r ≠ .error .aborted v) ∧
      history.Contained ∧ history.active = [] ∧ (final r).Idle ∧
      (final r).converter.reports =
        (if w.converter.config.strict then [] else history.faults) ++ w.converter.reports ∧
      ∀ m v, r = .error (.malformed m) v → ∃ n, .faulted n m ∈ history) ∧
    ∀ w : World σ κ, Reachable w → w.Idle ∧ abort w = .ok () w := by
  refine ⟨fun handlers d w => ?_, fun w hw => ⟨hw.idle, abort_idle hw.idle⟩⟩
  intro r told history
  have hforgotten : forgotten told = r := Retells.convert (.handlers handlers) d _
  -- What is left of an earlier conversion does not matter, for the new one starts afresh.
  let start : World (σ × History) κ := ⟨(w.client, []), w.converter.finish⟩
  have hstart : start.Abides w.converter.config w.converter.reports :=
    ⟨.nil, rfl, by cases w.converter.config.strict <;> rfl, rfl⟩
  obtain ⟨hleads, hexplains⟩ :=
    (convert_orderly (handlers_orderly handlers) d).final_leads hstart id
  have hfinal : (final told).forget = final r := by
    rw [← hforgotten]
    cases told <;> rfl
  have hreports : (final r).converter.reports = (final told).converter.reports :=
    congrArg (·.converter.reports) hfinal.symm
  refine ⟨hforgotten, convert_ne_aborted _ d w, hleads.abides.lawful.contained hleads.active,
    hleads.active, convert_idle _ d w, hreports.trans hleads.abides.reports, ?_⟩
  intro m v hr
  obtain ⟨u, htold, -⟩ := forgotten_error (hforgotten.trans hr)
  have hhistory : history = u.client.2 := by simp only [history, htold, final]
  rw [hhistory]
  exact (hexplains _ u htold).malformed m rfl

private def aborting (within : Document) : Script.Rules :=
  [("x".toList, [.convert within (some [("a".toList, [.abort], none)])], some [.abort])]

private def abortedWithin (within around : Document) : History :=
  [.ended 0 (.ok ()), .ignored, .handled 0 (.closeElement "x".toList), .ended 1 (.error .aborted),
    .aborted, .handled 1 (.openElement "a".toList []), .began 1 within,
    .handled 0 (.openElement "x".toList []), .began 0 around]

private theorem convert_aborting {within around : Document} {rest : List Event}
    (hwithin : within.read.events = .openElement "a".toList [] :: rest)
    (haround : around.read =
      ⟨[.openElement "x".toList [], .closeElement "x".toList], .complete⟩) :
    (final (Chronicle.convert (some ((Script.handlers (aborting within)).client .chronicled)) around
      ⟨([], []), .new {}⟩)).client.2 = abortedWithin within around := by
  have hopening : ∀ w : World (Script.Log × History) Script.Rest,
      ((Script.handlers (aborting within)).client .chronicled).opening "x".toList [] w =
        let n := w.client.2.begun
        .ok (some ⟨"x".toList, [.abort]⟩)
          ⟨(.opened "a".toList [] :: .opened "x".toList [] :: w.client.1,
              .ended n (.error .aborted) :: .aborted :: .handled n (.openElement "a".toList []) ::
                .began n within :: w.client.2),
            (w.converter.start true).finish⟩ := by
    intro w
    change (Chronicle.convert _ within >>= fun _ => _)
      ⟨(.opened "x".toList [] :: w.client.1, w.client.2), w.converter⟩ = _
    refine bind_ok (a := ()) ?_
    simp only [Chronicle.convert, hwithin]
    rfl
  have hunknown : Element.ofTag? "x".toList = none := rfl
  simp only [Chronicle.convert, haround, Chronicle.feed, bind_assoc]
  rw [Chronicle.tell_then, bind_ok (handle_openOffered hunknown rfl (hopening _)),
    Chronicle.tell_then]
  rfl

/-- The second abort is ignored: no parser is registered for the conversion that goes on. -/
theorem convert_abortedWithin :
    let within : Document := .ofString "<a/>"
    let around : Document := .ofString "<x/>"
    let r := convert (some (Script.client (aborting within))) around ⟨[], .new {}⟩
    (∀ v, r ≠ .error .aborted v) ∧ (abortedWithin within around).Contained ∧
    (final r).Idle ∧ (final r).converter.reports = [] := by
  intro within around r
  have hwithin : within.read.events = [.openElement "a".toList [], .closeElement "a".toList] := by
    cbv
  have haround : around.read =
      ⟨[.openElement "x".toList [], .closeElement "x".toList], .complete⟩ := by cbv
  -- From here on nothing but the readings of the documents matters.
  clear_value within around
  have hhistory := convert_aborting hwithin haround
  have hcontained := (aborts_contained Script.Log Script.Rest).1
    (some (Script.handlers (aborting within))) around ⟨[], .new {}⟩
  simp only [Option.map_some, Script.client_handlers] at hcontained
  obtain ⟨-, hnever, hcontained, -, hidle, hreports, -⟩ := hcontained
  rw [hhistory] at hcontained hreports
  exact ⟨hnever, hcontained, hidle, hreports⟩

end Operation
end DocMarkdown
