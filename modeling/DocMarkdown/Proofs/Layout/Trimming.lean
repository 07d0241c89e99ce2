import DocMarkdown.Proofs.Layout.Writing
import Mathlib.Data.List.DropRight

/-! Sessions that differ in their outputs only. Everything but the end of a heading writes without
looking at what has been written; the end of a heading drops the spaces of an empty line, as far as
they stand in the last piece. Two outputs with the same text stay so as long as their last pieces
have the same to drop whenever a heading can end. -/

namespace DocMarkdown
open Layout Markdown

namespace Text

def firm (t : Text) : Text := if t.allBlank then t.dropEnd (· == ' ') else t

def loose (t : Text) : Nat := t.length - t.firm.length

theorem dropEnd_prefix (p : Char → Bool) (t : Text) : t.dropEnd p <+: t := by
  have h := List.dropWhile_suffix p (l := t.reverse)
  rw [← List.reverse_prefix, List.reverse_reverse] at h
  exact h

theorem firm_prefix (t : Text) : t.firm <+: t := by
  unfold firm
  split
  · exact dropEnd_prefix _ t
  · exact List.prefix_rfl

theorem firm_eq_take (t : Text) : t.firm = t.take (t.length - t.loose) := by
  have hlength := t.firm_prefix.length_le
  have hloose : t.length - t.loose = t.firm.length := by
    rw [loose]
    omega
  rw [hloose]
  exact List.prefix_iff_eq_take.mp t.firm_prefix

theorem loose_firm (t : Text) : t.firm.loose = 0 := by
  cases ht : t.allBlank with
  | false => simp [loose, firm, ht]
  | true =>
    have hfirm : t.firm.firm = t.firm := by
      simp [firm, ht, dropEnd, List.dropWhile_idempotent]
    rw [loose, hfirm, Nat.sub_self]

theorem loose_escape (t : Text) : (escape t).loose = t.loose := by
  cases ht : t.allBlank with
  | true => rw [escape_of_allBlank ht]
  | false =>
    have hescape : (escape t).allBlank = false := by
      rw [allBlank, List.all_eq_false] at ht ⊢
      obtain ⟨c, hc, hblank⟩ := ht
      exact ⟨c, mem_escape hc, hblank⟩
    simp [loose, firm, ht, hescape]

theorem loose_literal (mode : Mode) (t : Text) : (mode.literal t).loose = t.loose := by
  cases mode with
  | text => rfl
  | markdown => exact loose_escape t

end Text

namespace Layout

def trimmed : List Text → List Text
  | [] => []
  | last :: before => last.firm :: before

/-- What two outputs have in common all along; `listing` tells whether a code listing is open. -/
structure Kept (R : (listing : Bool) → List Text → List Text → Prop) : Prop where
  write {listing : Bool} {o o' : List Text} (h : R listing o o') (next : Bool) (t : Text) :
    R next (t :: o) (t :: o')
  trim {o o' : List Text} (h : R false o o') : R false (trimmed o) (trimmed o')

theorem kept_anything : Kept fun _ _ _ => True := ⟨fun _ _ _ => trivial, fun _ => trivial⟩

structure SameText (listing : Bool) (o o' : List Text) : Prop where
  text : o.reverse.flatten = o'.reverse.flatten
  loose : listing = false → (o.headD []).loose = (o'.headD []).loose

theorem flatten_trimmed (o : List Text) :
    (trimmed o).reverse.flatten =
      o.reverse.flatten.take (o.reverse.flatten.length - (o.headD []).loose) := by
  cases o with
  | nil => rfl
  | cons last before =>
    have hloose : last.loose ≤ last.length := Nat.sub_le _ _
    simp only [trimmed, List.reverse_cons, List.flatten_append, List.flatten_singleton,
      List.headD_cons, List.length_append]
    rw [Nat.add_sub_assoc hloose, List.take_append, Text.firm_eq_take,
      List.take_of_length_le (Nat.le_add_right _ _), Nat.add_sub_cancel_left]

theorem loose_le_length (o : List Text) : (o.headD []).loose ≤ o.reverse.flatten.length := by
  cases o with
  | nil => exact Nat.le_refl _
  | cons last before =>
    have hloose : last.loose ≤ last.length := Nat.sub_le _ _
    simp only [List.headD_cons, List.reverse_cons, List.flatten_append, List.flatten_singleton,
      List.length_append]
    omega

theorem loose_trimmed (o : List Text) : ((trimmed o).headD []).loose = 0 := by
  cases o with
  | nil => rfl
  | cons last before => exact last.loose_firm

theorem kept_sameText : Kept SameText where
  write h _ t := by
    refine ⟨?_, fun _ => rfl⟩
    simp only [List.reverse_cons, List.flatten_append, h.text]
  trim {o o'} h := by
    refine ⟨?_, fun _ => ?_⟩
    · rw [flatten_trimmed, flatten_trimmed, h.text, h.loose rfl]
    · rw [loose_trimmed, loose_trimmed]

theorem kept_suffix {p : Text} (hp : p.allBlank = false) (before : List Text) :
    Kept fun _ o _ => p :: before <:+ o where
  write h _ t := h.trans (List.suffix_cons t _)
  trim {o _} h := by
    cases o with
    | nil => exact h
    | cons last o =>
      rcases List.suffix_cons_iff.mp h with heq | hsuffix
      · obtain ⟨rfl, rfl⟩ := List.cons_eq_cons.mp heq
        have hfirm : p.firm = p := by simp [Text.firm, hp]
        simp [trimmed, hfirm]
      · exact hsuffix.trans (List.suffix_cons _ o)

namespace Session
variable {R : Bool → List Text → List Text → Prop} {s s' : Session}

theorem trimLine_eq (s : Session) : s.trimLine = { s with output := trimmed s.output } := by
  unfold trimLine
  cases ho : s.output with
  | nil => simp only [trimmed, ← ho]
  | cons last before =>
    simp only [trimmed, Text.firm]
    split
    · rfl
    · rw [← ho]

def inHeading (s : Session) : Session :=
  { s with context := { s.context with htmlHeading := true } }

theorem rawBlock_listing (h : s.context.codeListing = true) (content : Text) :
    s.rawBlock content = s.writeMargin (content ++ ['\n']) := if_pos h

theorem rawBlock_fragment (h : s.context.codeListing = false) (content : Text) :
    s.rawBlock content = match Fragment.read content with
      | .heading h => (if h.closing then s.inHeading.trimLine else s.inHeading).write h.markdown
      | fragment => s.write fragment.markdown := by
  rw [rawBlock, h]
  rfl

inductive Like (R : Bool → List Text → List Text → Prop) (s : Session) : Session → Prop
  | mk {o : List Text} (h : R s.context.codeListing s.output o) : Like R s { s with output := o }

namespace Like

theorem write (k : Kept R) (h : s.Like R s') (t : Text) : (s.write t).Like R (s'.write t) := by
  obtain ⟨h⟩ := h
  exact .mk (k.write h _ t)

theorem context_eq (h : s.Like R s') : s'.context = s.context := by
  obtain ⟨h⟩ := h
  rfl

theorem permits_eq (h : s.Like R s') (a : Action) : s'.permits a = s.permits a := by
  obtain ⟨h⟩ := h
  rfl

theorem mode_eq (h : s.Like R s') : s'.mode = s.mode := by
  obtain ⟨h⟩ := h
  rfl

theorem inHeading (h : s.Like R s') : s.inHeading.Like R s'.inHeading := by
  obtain ⟨h⟩ := h
  exact .mk h

theorem writeMargin (k : Kept R) (h : s.Like R s') (rest : Text) :
    (s.writeMargin rest).Like R (s'.writeMargin rest) := by
  obtain ⟨h⟩ := h
  exact .mk (k.write h _ _)

theorem trimLine (k : Kept R) (h : s.Like R s') (hx : s.context.codeListing = false) :
    s.trimLine.Like R s'.trimLine := by
  obtain ⟨h⟩ := h
  rw [hx] at h
  rw [trimLine_eq, trimLine_eq]
  refine .mk ?_
  rw [hx]
  exact k.trim h

theorem literal (k : Kept R) (h : s.Like R s') (t : Text) :
    (s.literal t).Like R (s'.literal t) := by
  rw [literal_eq, literal_eq, h.mode_eq]
  exact h.write k _

theorem rawBlock (k : Kept R) (h : s.Like R s') (content : Text) :
    (s.rawBlock content).Like R (s'.rawBlock content) := by
  cases hlisting : s.context.codeListing with
  | true =>
    rw [rawBlock_listing hlisting, rawBlock_listing (h.context_eq ▸ hlisting)]
    exact h.writeMargin k _
  | false =>
    rw [rawBlock_fragment hlisting, rawBlock_fragment (h.context_eq ▸ hlisting)]
    cases Fragment.read content with
    | heading heading =>
      -- the end of a heading alone looks at what has been written
      cases hclosing : heading.closing with
      | true =>
        simp only [hclosing, if_true]
        exact (h.inHeading.trimLine k hlisting).write k _
      | false =>
        simp only [hclosing, Bool.false_eq_true, if_false]
        exact h.inHeading.write k _
    | image | rule | other => exact h.write k _

theorem openElement (k : Kept R) (h : s.Like R s') (e : Element) (attributes : Attributes) :
    (s.openElement e attributes).1.Like R (s'.openElement e attributes).1 ∧
      (s'.openElement e attributes).2 = (s.openElement e attributes).2 := by
  obtain ⟨h⟩ := h
  cases e with
  | para | emphasis | strong | codeVoice | codeListing | link => exact ⟨.mk (k.write h _ _), rfl⟩
  | codeLineNumbered => exact ⟨.mk h, rfl⟩
  | rawHtml =>
    refine ⟨?_, rfl⟩
    simp only [Session.openElement]
    split
    · exact .mk (k.write h _ _)
    · exact .mk h
  | list kind =>
    refine ⟨?_, rfl⟩
    simp only [Session.openElement]
    split
    · exact .mk (k.write h _ _)
    · exact .mk h
  | item => exact ⟨.mk (k.write (k.write h s.context.codeListing _) _ _), rfl⟩

theorem close (k : Kept R) (h : s.Like R s') (a : Action) : (s.close a).Like R (s'.close a) := by
  obtain ⟨h⟩ := h
  cases a with
  | write | endPara | endCodeListing => exact .mk (k.write h _ _)
  | endRawHtml block =>
    simp only [Session.close]
    split
    · exact .mk (k.write h _ _)
    · exact .mk h
  | endList => exact .mk h

theorem output (h : s.Like R s') : R s.context.codeListing s.output s'.output := by
  obtain ⟨h⟩ := h
  exact h

theorem closeWith (k : Kept R) (h : s.Like R s') (action : Option Action) :
    (s.closeWith action).Like R (s'.closeWith action) := by
  cases action with
  | none => exact h
  | some a => exact h.close k a

end Like
end Session
end Layout
end DocMarkdown
