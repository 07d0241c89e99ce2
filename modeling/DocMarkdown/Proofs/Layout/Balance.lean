import DocMarkdown.Layout.Session

/-! The lists that a session has open and how deep it is indented. Only the two tags of a list
change them, both together, so that the depth stays the number of open lists. -/

namespace DocMarkdown

def Element.listKind? : Element → Option ListKind
  | .list kind => some kind
  | _ => none

namespace Layout

/-- The session has these lists open, the innermost first, and is indented so deep. -/
structure Session.Stands (s : Session) (kinds : List ListKind) (level : Int) : Prop where
  lists : s.context.lists = kinds
  level : s.indent.level = level

abbrev Session.Balanced (s : Session) (kinds : List ListKind) : Prop := s.Stands kinds kinds.length

namespace Session.Stands
variable {s : Session} {kinds : List ListKind} {level : Int}

theorem new (width : Nat) (mode : Mode) : (Session.new width mode).Balanced [] := ⟨rfl, rfl⟩

theorem margin_level (i : Indent) : i.margin.2.level = i.level := by
  unfold Indent.margin
  split <;> rfl

theorem lineStart_level (i : Indent) : i.lineStart.2.level = i.level := by
  unfold Indent.lineStart
  split <;> rfl

theorem of_eq {s' : Session} (h : s.Stands kinds level) (hl : s'.context.lists = s.context.lists)
    (hv : s'.indent.level = s.indent.level) : s'.Stands kinds level :=
  ⟨hl.trans h.lists, hv.trans h.level⟩

theorem write (h : s.Stands kinds level) (t : Text) : (s.write t).Stands kinds level :=
  h.of_eq rfl rfl

theorem writeMargin (h : s.Stands kinds level) (rest : Text) :
    (s.writeMargin rest).Stands kinds level :=
  h.of_eq rfl (margin_level s.indent)

theorem writeLineStart (h : s.Stands kinds level) (rest : Text) :
    (s.writeLineStart rest).Stands kinds level :=
  h.of_eq rfl (lineStart_level s.indent)

theorem literal (h : s.Stands kinds level) (t : Text) : (s.literal t).Stands kinds level := by
  unfold Session.literal
  split
  · exact h.write t
  · exact h.write (Markdown.escape t)

theorem trimLine (h : s.Stands kinds level) : s.trimLine.Stands kinds level := by
  unfold Session.trimLine
  split
  · exact h
  · split
    · exact h.of_eq rfl rfl
    · exact h

theorem rawBlock (h : s.Stands kinds level) (content : Text) :
    (s.rawBlock content).Stands kinds level := by
  unfold Session.rawBlock
  split
  · exact h.writeMargin _
  · split
    · rename_i heading _
      have hs : Session.Stands
          { s with context := { s.context with htmlHeading := true } } kinds level :=
        h.of_eq rfl rfl
      split
      · exact hs.trimLine.write heading.markdown
      · exact hs.write heading.markdown
    · exact h.write _

theorem openList (h : s.Stands kinds level) (kind : ListKind) (attributes : Attributes) :
    (s.openElement (.list kind) attributes).1.Stands (kind :: kinds) (level + 1) := by
  have hs : Session.Stands (if s.context.lists.isEmpty then s.write ['\n'] else s) kinds level := by
    split
    · exact h.write _
    · exact h
  exact ⟨congrArg (kind :: ·) hs.lists, congrArg (· + 1) hs.level⟩

theorem openOther (h : s.Stands kinds level) {e : Element} (he : e.listKind? = none)
    (attributes : Attributes) : (s.openElement e attributes).1.Stands kinds level := by
  cases e with
  | para => exact (h.writeLineStart []).of_eq rfl rfl
  | emphasis | strong | codeVoice => exact h.write _
  | codeListing => exact h.of_eq rfl (lineStart_level s.indent)
  | codeLineNumbered => exact h
  | link => exact h.write _
  | rawHtml =>
    simp only [Session.openElement]
    split
    · exact h.writeLineStart []
    · exact h
  | list kind => cases he
  | item =>
    -- the marker is written one level further out, and the level is put back
    refine ⟨h.lists, ?_⟩
    simp only [Session.openElement, Session.writeMargin, Session.write, Indent.skipNext,
      Indent.increment, margin_level, Indent.decrement, h.level]
    exact Int.sub_add_cancel _ _

theorem close (h : s.Stands kinds level) {a : Action} (ha : a ≠ .endList) :
    (s.close a).Stands kinds level := by
  cases a with
  | write t => exact h.write t
  | endPara => exact h.of_eq rfl rfl
  | endCodeListing => exact h.of_eq rfl (margin_level s.indent)
  | endRawHtml block =>
    simp only [Session.close]
    split <;> exact h.of_eq rfl rfl
  | endList => exact absurd rfl ha

theorem closeList {kind : ListKind} (h : s.Stands (kind :: kinds) (level + 1)) :
    (s.close .endList).Stands kinds level := by
  refine ⟨?_, ?_⟩
  · simp only [Session.close, h.lists, List.tail_cons]
  · simp only [Session.close, Indent.decrement, h.level]
    exact Int.add_sub_cancel _ _

end Session.Stands

namespace Session

theorem openElement_list_action (s : Session) (kind : ListKind) (attributes : Attributes) :
    (s.openElement (.list kind) attributes).2 = some .endList := rfl

theorem openElement_action_ne (s : Session) {e : Element} (he : e.listKind? = none)
    (attributes : Attributes) : (s.openElement e attributes).2 ≠ some .endList := by
  cases e with
  | list kind => cases he
  | _ => nofun

theorem permits_of_ne (s : Session) {a : Action} (ha : a ≠ .endList) : s.permits a = true := by
  cases a with
  | endList => exact absurd rfl ha
  | _ => rfl

theorem permits_endList {s : Session} {kinds : List ListKind} {level : Int}
    (h : s.Stands kinds level) :
    s.permits .endList = !kinds.isEmpty := by
  simp only [permits, h.lists]

def closeWith : Option Action → Session → Session
  | some a, s => s.close a
  | none, s => s

variable {s : Session} {kinds : List ListKind} {level : Int} {kind : Option ListKind}
  {action : Option Action}

theorem openElement_action_iff (s : Session) (e : Element) (attributes : Attributes) :
    (s.openElement e attributes).2 = some .endList ↔ e.listKind?.isSome = true := by
  cases hk : e.listKind? with
  | none => simpa using s.openElement_action_ne hk attributes
  | some kind =>
    cases e with
    | list kind => simp [openElement_list_action]
    | _ => cases hk

theorem Stands.openElement (hs : s.Stands kinds level) (e : Element) (attributes : Attributes) :
    (s.openElement e attributes).1.Stands (e.listKind?.toList ++ kinds)
      (level + e.listKind?.toList.length) := by
  cases hk : e.listKind? with
  | none => simpa using hs.openOther hk attributes
  | some kind =>
    cases e with
    | list k =>
      cases hk
      exact hs.openList _ attributes
    | _ => cases hk

theorem Stands.closeWith (hs : s.Stands (kind.toList ++ kinds) (level + kind.toList.length))
    (ha : action = some .endList ↔ kind.isSome = true) :
    (∀ a ∈ action, s.permits a = true) ∧ (s.closeWith action).Stands kinds level := by
  cases kind with
  | none =>
    replace hs : s.Stands kinds level := by simpa using hs
    cases action with
    | none => exact ⟨nofun, hs⟩
    | some a =>
      have hne : a ≠ .endList := fun h => by simp [h] at ha
      refine ⟨fun b hb => ?_, hs.close hne⟩
      cases hb
      exact s.permits_of_ne hne
  | some kind =>
    cases ha.mpr rfl
    refine ⟨fun b hb => ?_, hs.closeList⟩
    cases hb
    exact permits_endList hs

theorem balanced_append : s.Balanced (kind.toList ++ kinds) ↔
    s.Stands (kind.toList ++ kinds) (kinds.length + kind.toList.length) := by
  rw [Session.Balanced, List.length_append, Int.natCast_add, Int.add_comm]

end Session
end Layout
end DocMarkdown
