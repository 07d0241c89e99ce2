import DocMarkdown.Converter.Run

/-! What happens while documents are converted, within each other and one after the other: when
conversions begin and end, which events their parsers hand over, and where an abort is called for.
A parser is registered when its conversion begins, and the end of any conversion leaves none
registered, nor does a reset. -/

namespace DocMarkdown
open Xml

/-- Conversions are numbered in the order in which they begin. A document that is found malformed
is reported or raised, as the policy has it. An abort is ignored when no parser is registered. -/
inductive Occurrence
  | began (n : Nat) (d : Document)
  | handled (n : Nat) (e : Event)
  | faulted (n : Nat) (m : Malformed)
  | reset
  | aborted
  | ignored
  | ended (n : Nat) (result : Except Stop Unit)

namespace Occurrence

def conversion? : Occurrence → Option Nat
  | began n _ | handled n _ | faulted n _ | ended n _ => some n
  | reset | aborted | ignored => none

def fault? : Occurrence → Option Malformed
  | faulted _ m => some m
  | _ => none

end Occurrence

abbrev History := List Occurrence

namespace History

def begun : History → Nat
  | [] => 0
  | .began _ _ :: earlier => begun earlier + 1
  | _ :: earlier => begun earlier

def active : History → List Nat
  | [] => []
  | .began n _ :: earlier => n :: active earlier
  | .ended _ _ :: earlier => (active earlier).tail
  | _ :: earlier => active earlier

/-- The conversion whose parser is registered. -/
def registered : History → Option Nat
  | [] | .ended _ _ :: _ | .reset :: _ => none
  | .began n _ :: _ => some n
  | _ :: earlier => registered earlier

def handledBy (n : Nat) : History → List Event
  | [] => []
  | .handled m e :: earlier => handledBy n earlier ++ if m = n then [e] else []
  | _ :: earlier => handledBy n earlier

def faults (h : History) : List Malformed := h.filterMap Occurrence.fault?

def Stopping : History → Prop
  | .aborted :: _ | .faulted _ _ :: _ => True
  | _ => False

inductive Allows (earlier : History) : Occurrence → Prop
  | began (d : Document) (h : ¬ earlier.Stopping) : Allows earlier (.began earlier.begun d)
  | handled {n : Nat} {around : List Nat} (e : Event) (hactive : earlier.active = n :: around)
      (h : ¬ earlier.Stopping) : Allows earlier (.handled n e)
  | faulted {n : Nat} {around : List Nat} (m : Malformed) (hactive : earlier.active = n :: around)
      (h : ¬ earlier.Stopping) : Allows earlier (.faulted n m)
  | reset (h : ¬ earlier.Stopping) : Allows earlier .reset
  | aborted {n : Nat} (hregistered : earlier.registered = some n) (h : ¬ earlier.Stopping) :
      Allows earlier .aborted
  | ignored (hregistered : earlier.registered = none) (h : ¬ earlier.Stopping) :
      Allows earlier .ignored
  | ended {n : Nat} {around : List Nat} {result : Except Stop Unit}
      (hactive : earlier.active = n :: around)
      (haborted : result = .error .aborted ↔ earlier.head? = some .aborted)
      (hevents : result = .ok () → ∃ d, .began n d ∈ earlier ∧
        earlier.handledBy n = d.read.events) : Allows earlier (.ended n result)

inductive Lawful : History → Prop
  | nil : Lawful []
  | cons {x : Occurrence} {earlier : History} (h : Lawful earlier) (hx : earlier.Allows x) :
      Lawful (x :: earlier)

variable {t earlier later : History} {x : Occurrence} {n : Nat}

theorem faults_cons (x : Occurrence) (t : History) :
    faults (x :: t) = x.fault?.toList ++ t.faults := by
  cases x <;> rfl

theorem active_of_registered (hn : t.registered = some n) : ∃ around, t.active = n :: around := by
  induction t with
  | nil => cases hn
  | cons x earlier ih =>
    cases x with
    | began m d =>
      cases hn
      exact ⟨active earlier, rfl⟩
    | handled m e => exact ih hn
    | faulted m fault => exact ih hn
    | aborted => exact ih hn
    | ignored => exact ih hn
    | reset => cases hn
    | ended m result => cases hn

theorem handledBy_append : (later ++ earlier).handledBy n =
    earlier.handledBy n ++ later.handledBy n := by
  induction later with
  | nil => exact (List.append_nil _).symm
  | cons x later ih =>
    cases x with
    | handled m e =>
      rw [List.cons_append, handledBy, handledBy, ih, List.append_assoc]
    | _ => exact ih

theorem handledBy_of_forall_ne (hne : ∀ x ∈ later, x.conversion? ≠ some n) :
    later.handledBy n = [] := by
  induction later with
  | nil => rfl
  | cons x later ih =>
    obtain ⟨hx, hlater⟩ := List.forall_mem_cons.mp hne
    cases x with
    | handled m e =>
      have hm : m ≠ n := fun hm => hx (congrArg some hm)
      rw [handledBy, ih hlater, if_neg hm]
      rfl
    | _ => exact ih hlater

namespace Lawful

theorem of_append (h : (later ++ earlier).Lawful) : earlier.Lawful := by
  induction later with
  | nil => exact h
  | cons x later ih =>
    cases h with
    | cons h hx => exact ih h

theorem allows (h : (later ++ x :: earlier).Lawful) : earlier.Lawful ∧ earlier.Allows x := by
  cases h.of_append with
  | cons h hx => exact ⟨h, hx⟩

theorem active_numbers (h : t.Lawful) : (∀ n ∈ t.active, n < t.begun) ∧ t.active.Nodup := by
  induction h with
  | nil => exact ⟨nofun, .nil⟩
  | @cons x earlier _ hx ih =>
    cases hx with
    | began d _ =>
      refine ⟨?_, List.nodup_cons.mpr ⟨fun hn => Nat.lt_irrefl _ (ih.1 _ hn), ih.2⟩⟩
      intro n hn
      rcases List.mem_cons.mp hn with rfl | hn
      · exact Nat.lt_succ_self _
      · exact Nat.lt_succ_of_lt (ih.1 n hn)
    | handled | faulted | reset | aborted | ignored => exact ih
    | ended => exact ⟨fun n hn => ih.1 n (List.mem_of_mem_tail hn), ih.2.tail⟩

theorem not_mem_around {around : List Nat} (h : t.Lawful) (hn : t.active = n :: around) :
    n ∉ around := by
  have hnodup := h.active_numbers.2
  rw [hn] at hnodup
  exact (List.nodup_cons.mp hnodup).1

theorem conversion_lt (h : t.Lawful) (hx : x ∈ t) (hn : x.conversion? = some n) : n < t.begun := by
  induction h with
  | nil => cases hx
  | @cons y earlier hearlier hy ih =>
    have hbegun : begun earlier ≤ begun (y :: earlier) := by
      cases y <;> simp [begun]
    rcases List.mem_cons.mp hx with rfl | hx
    · cases hy with
      | began d _ =>
        cases hn
        exact Nat.lt_succ_self _
      | handled _ hactive _ | faulted _ hactive _ | ended hactive =>
        cases hn
        exact hearlier.active_numbers.1 n (hactive ▸ List.mem_cons_self)
      | reset | aborted | ignored => cases hn
    · exact Nat.lt_of_lt_of_le (ih hx) hbegun

theorem gone (h : (later ++ earlier).Lawful) (hlt : n < earlier.begun)
    (hactive : n ∉ earlier.active) :
    n < begun (later ++ earlier) ∧ n ∉ active (later ++ earlier) ∧
      ∀ x ∈ later, x.conversion? ≠ some n := by
  induction later with
  | nil => exact ⟨hlt, hactive, nofun⟩
  | cons y later ih =>
    cases h with
    | cons h hy =>
      obtain ⟨hlt, hactive, hlater⟩ := ih h
      suffices hnext : n < begun (y :: (later ++ earlier)) ∧ n ∉ active (y :: (later ++ earlier)) ∧
          y.conversion? ≠ some n from
        ⟨hnext.1, hnext.2.1, List.forall_mem_cons.mpr ⟨hnext.2.2, hlater⟩⟩
      cases hy with
      | began d _ =>
        refine ⟨Nat.lt_succ_of_lt hlt, ?_, fun hn => Nat.ne_of_gt hlt (Option.some.inj hn)⟩
        rw [active, List.mem_cons]
        exact not_or.mpr ⟨Nat.ne_of_lt hlt, hactive⟩
      | handled e hm _ | faulted m hm _ =>
        refine ⟨hlt, hactive, fun hn => hactive ?_⟩
        cases hn
        exact hm ▸ List.mem_cons_self
      | reset | aborted | ignored => exact ⟨hlt, hactive, nofun⟩
      | ended hm =>
        refine ⟨hlt, fun hn => hactive (List.mem_of_mem_tail hn), fun hn => hactive ?_⟩
        cases hn
        exact hm ▸ List.mem_cons_self

theorem gone_of_ended {result : Except Stop Unit}
    (h : (later ++ .ended n result :: earlier).Lawful) : ∀ x ∈ later, x.conversion? ≠ some n := by
  obtain ⟨hearlier, hallows⟩ := h.allows
  cases hallows with
  | @ended _ around _ hactive =>
    have hlt := hearlier.active_numbers.1 n (hactive ▸ List.mem_cons_self)
    refine (h.gone hlt ?_).2.2
    rw [active, hactive]
    exact hearlier.not_mem_around hactive

theorem head_of_faulted {m : Malformed} (h : t.Lawful) (hm : .faulted n m ∈ t)
    (hn : n ∈ t.active) : t.head? = some (.faulted n m) := by
  induction h with
  | nil => cases hm
  | @cons x earlier hearlier hx ih =>
    rcases List.mem_cons.mp hm with rfl | hm
    · rfl
    have hall : Lawful ([x] ++ earlier) := hearlier.cons hx
    by_cases hactive : n ∈ active earlier
    · exfalso
      obtain ⟨before, rfl⟩ := List.head?_eq_some_iff.mp (ih hm hactive)
      cases hx with
      | began _ h | handled _ _ h | faulted _ _ h | reset h | aborted _ h | ignored _ h =>
        exact h trivial
      | @ended k around result hk =>
        obtain rfl : k = n := by
          cases hearlier with
          | cons _ hfault =>
            cases hfault with
            | faulted _ hn _ => exact (List.cons.inj (hk.symm.trans hn)).1
        rw [active, hk] at hn
        exact hearlier.not_mem_around hk hn
    · exact absurd hn (hall.gone (hearlier.conversion_lt hm rfl) hactive).2.1

end Lawful

/-- An abort ends one conversion, the innermost, whose parser is registered. It ends at once, and
nothing belongs to it afterwards; its document is not found malformed. A conversion ends so after an
abort only, and one that ends by itself has had all events of its document. -/
structure Contained (t : History) : Prop where
  aborts : ∀ {later earlier : History}, t = later ++ .aborted :: earlier →
    ∃ n around after, registered earlier = some n ∧ active earlier = n :: around ∧
      later = after ++ [.ended n (.error .aborted)] ∧
      (∀ x ∈ after, x.conversion? ≠ some n) ∧ ∀ m, .faulted n m ∉ t
  ignores : ∀ {later earlier : History}, t = later ++ .ignored :: earlier →
    registered earlier = none
  ends : ∀ {later earlier : History} {n : Nat},
    t = later ++ .ended n (.error .aborted) :: earlier → earlier.head? = some .aborted
  delivers : ∀ {n : Nat}, .ended n (.ok ()) ∈ t →
    ∃ d, .began n d ∈ t ∧ t.handledBy n = d.read.events

namespace Lawful

theorem aborted {around : List Nat} (h : (later ++ .aborted :: earlier).Lawful)
    (hnone : active (later ++ .aborted :: earlier) = []) (hn : active earlier = n :: around) :
    ∃ after, later = after ++ [.ended n (.error .aborted)] ∧
      (∀ x ∈ after, x.conversion? ≠ some n) ∧ ∀ m, .faulted n m ∉ later ++ .aborted :: earlier := by
  -- The abort is not the last that happens, for its conversion is still going on.
  obtain rfl | ⟨after, x, rfl⟩ := later.eq_nil_or_concat
  · exact absurd (hn.symm.trans hnone) nofun
  have hall : Lawful (after ++ x :: .aborted :: earlier) := by simpa using h
  obtain ⟨-, hx⟩ := hall.allows
  cases hx with
  | began _ hs | handled _ _ hs | faulted _ _ hs | reset hs | aborted _ hs | ignored _ hs =>
    exact absurd trivial hs
  | @ended k _ result hk haborted =>
    obtain rfl : k = n := (List.cons.inj (hk.symm.trans hn)).1
    obtain rfl : result = .error .aborted := haborted.mpr rfl
    have hgone := hall.gone_of_ended
    refine ⟨after, List.concat_eq_append, hgone, fun m hm => ?_⟩
    obtain ⟨hearlier, hallows⟩ := h.allows
    have hfault : .faulted k m ∈ earlier := by
      simp only [List.concat_eq_append, List.mem_append, List.mem_cons, reduceCtorEq, false_or,
        List.not_mem_nil, or_false] at hm
      exact hm.resolve_left fun hm => hgone _ hm rfl
    have hhead := hearlier.head_of_faulted hfault (hn ▸ List.mem_cons_self)
    obtain ⟨before, rfl⟩ := List.head?_eq_some_iff.mp hhead
    cases hallows with
    | aborted _ h => exact h trivial

theorem contained (h : t.Lawful) (hnone : t.active = []) : t.Contained where
  aborts := by
    rintro later earlier rfl
    cases h.allows.2 with
    | aborted hregistered _ =>
      obtain ⟨around, hactive⟩ := active_of_registered hregistered
      obtain ⟨after, hlater, hafter, hfaults⟩ := h.aborted hnone hactive
      exact ⟨_, around, after, hregistered, hactive, hlater, hafter, hfaults⟩
  ignores := by
    rintro later earlier rfl
    cases h.allows.2 with
    | ignored hregistered _ => exact hregistered
  ends := by
    rintro later earlier n rfl
    cases h.allows.2 with
    | ended _ haborted _ => exact haborted.mp rfl
  delivers := by
    intro n hended
    obtain ⟨later, earlier, rfl⟩ := List.append_of_mem hended
    cases h.allows.2 with
    | ended _ _ hevents =>
      obtain ⟨d, hbegan, hd⟩ := hevents rfl
      refine ⟨d, List.mem_append_right _ (List.mem_cons_of_mem _ hbegan), ?_⟩
      rw [handledBy_append, handledBy_of_forall_ne h.gone_of_ended, List.append_nil]
      exact hd

end Lawful
end History
end DocMarkdown
