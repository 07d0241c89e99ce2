import DocMarkdown.Proofs.Layout.Balance

/-! What is written to a session. Text is written as its mode has it, verbatim or escaped, and no
event changes the mode or how wide the session indents. -/

namespace DocMarkdown.Layout
open Markdown

namespace Mode

def literal : Mode → Text → Text
  | text, t => t
  | markdown, t => escape t

theorem flatten_map_literal (mode : Mode) (parts : List Text) :
    (parts.map mode.literal).flatten = mode.literal parts.flatten := by
  induction parts with
  | nil => cases mode <;> rfl
  | cons t parts ih => cases mode <;> simp_all [literal]

end Mode

namespace Session

theorem literal_eq (t : Text) (s : Session) : s.literal t = s.write (s.mode.literal t) := by
  cases hm : s.mode <;> simp only [literal, Mode.literal, hm]

theorem text_write (t : Text) (s : Session) : (s.write t).text = s.text ++ t := by
  simp [text, write]

theorem mode_literal (t : Text) (s : Session) : (s.literal t).mode = s.mode := by
  rw [literal_eq]
  rfl

theorem mode_trimLine (s : Session) : s.trimLine.mode = s.mode := by
  unfold trimLine
  split
  · rfl
  · split <;> rfl

theorem mode_rawBlock (content : Text) (s : Session) : (s.rawBlock content).mode = s.mode := by
  unfold rawBlock
  split
  · rfl
  · split
    · split
      · exact mode_trimLine _
      · rfl
    · rfl

theorem mode_openElement (s : Session) (e : Element) (attributes : Attributes) :
    (s.openElement e attributes).1.mode = s.mode := by
  cases e with
  | rawHtml | list kind =>
    simp only [openElement]
    split <;> rfl
  | _ => rfl

theorem mode_closeWith (action : Option Action) (s : Session) :
    (s.closeWith action).mode = s.mode := by
  cases action with
  | none => rfl
  | some a =>
    cases a with
    | endRawHtml block =>
      simp only [closeWith, close]
      split <;> rfl
    | _ => rfl

theorem width_margin (i : Indent) : i.margin.2.width = i.width := by
  unfold Indent.margin
  split <;> rfl

theorem width_lineStart (i : Indent) : i.lineStart.2.width = i.width := by
  unfold Indent.lineStart
  split <;> rfl

theorem width_literal (t : Text) (s : Session) :
    (s.literal t).indent.width = s.indent.width := by
  rw [literal_eq]
  rfl

theorem width_trimLine (s : Session) : s.trimLine.indent.width = s.indent.width := by
  unfold trimLine
  split
  · rfl
  · split <;> rfl

theorem width_rawBlock (content : Text) (s : Session) :
    (s.rawBlock content).indent.width = s.indent.width := by
  unfold rawBlock
  split
  · exact width_margin s.indent
  · split
    · split
      · exact width_trimLine _
      · rfl
    · rfl

theorem width_openElement (s : Session) (e : Element) (attributes : Attributes) :
    (s.openElement e attributes).1.indent.width = s.indent.width := by
  cases e with
  | para | codeListing => exact width_lineStart s.indent
  | rawHtml =>
    simp only [openElement]
    split
    · exact width_lineStart s.indent
    · rfl
  | list kind =>
    simp only [openElement]
    split <;> rfl
  | item => exact width_margin s.indent.decrement
  | _ => rfl

theorem width_closeWith (action : Option Action) (s : Session) :
    (s.closeWith action).indent.width = s.indent.width := by
  cases action with
  | none => rfl
  | some a =>
    cases a with
    | endCodeListing => exact width_margin s.indent
    | endRawHtml block =>
      simp only [closeWith, close]
      split <;> rfl
    | _ => rfl

end Session
end DocMarkdown.Layout
