import DocMarkdown.Proofs.Layout.Trimming

/-! The flags of a session: whether it takes itself to be in a paragraph, in a code listing or
behind a heading tag, and whether the next margin is skipped. They follow the tags and the raw
sections alone, whatever is written in between. -/

namespace DocMarkdown
open Layout Markdown

def Markdown.Fragment.isHeading : Fragment → Bool
  | heading _ => true
  | _ => false

namespace Layout

structure Flags where
  para : Bool := false
  listing : Bool := false
  heading : Bool := false
  skip : Bool := false
  deriving DecidableEq

namespace Flags

/-- The flags after the start tag of an element. A line that begins uses up the skip, and the
marker of an item asks for a new one. -/
def opened (f : Flags) : Element → Flags
  | .para => { f with para := true, skip := false }
  | .codeListing => { f with listing := true, skip := false }
  | .rawHtml => { f with skip := f.skip && f.para }
  | .item => { f with skip := true }
  | _ => f

def closed (f : Flags) : Element → Flags
  | .para => { f with para := false }
  | .codeListing => { f with listing := false, skip := false }
  | .rawHtml => { f with heading := false }
  | _ => f

def rawBlock (f : Flags) (content : Text) : Flags :=
  if f.listing then { f with skip := false }
  else { f with heading := f.heading || (Fragment.read content).isHeading }

section Values
variable (f : Flags) (x : Element) (content : Text)

theorem para_opened : (f.opened x).para = true ↔ x = .para ∨ f.para = true := by
  cases x <;> simp [opened]

theorem listing_opened : (f.opened x).listing = true ↔ x = .codeListing ∨ f.listing = true := by
  cases x <;> simp [opened]

theorem heading_opened : (f.opened x).heading = f.heading := by
  cases x <;> rfl

theorem skip_opened : (f.opened x).skip = true ↔
    x = .item ∨ ¬ (x = .para ∨ x = .codeListing ∨ x = .rawHtml ∧ f.para = false) ∧
      f.skip = true := by
  cases x <;> simp [opened, and_comm]

theorem para_closed : (f.closed x).para = true ↔ x ≠ .para ∧ f.para = true := by
  cases x <;> simp [closed]

theorem listing_closed : (f.closed x).listing = true ↔ x ≠ .codeListing ∧ f.listing = true := by
  cases x <;> simp [closed]

theorem heading_closed : (f.closed x).heading = true ↔ x ≠ .rawHtml ∧ f.heading = true := by
  cases x <;> simp [closed]

theorem skip_closed : (f.closed x).skip = true ↔ x ≠ .codeListing ∧ f.skip = true := by
  cases x <;> simp [closed]

theorem para_rawBlock : (f.rawBlock content).para = f.para := by
  unfold rawBlock
  split <;> rfl

theorem listing_rawBlock : (f.rawBlock content).listing = f.listing := by
  unfold rawBlock
  split <;> rfl

theorem heading_rawBlock : (f.rawBlock content).heading = true ↔
    f.listing = false ∧ (Fragment.read content).isHeading = true ∨ f.heading = true := by
  cases hlisting : f.listing <;> simp [rawBlock, hlisting, or_comm]

theorem skip_rawBlock :
    (f.rawBlock content).skip = true ↔ f.listing = false ∧ f.skip = true := by
  cases hlisting : f.listing <;> simp [rawBlock, hlisting]

end Values
end Flags

namespace Session

def flags (s : Session) : Flags where
  para := s.context.para
  listing := s.context.codeListing
  heading := s.context.htmlHeading
  skip := s.indent.skip

theorem flags_new (width : Nat) (mode : Mode) : (new width mode).flags = {} := rfl

theorem skip_margin (i : Indent) : i.margin.2.skip = false := by
  cases h : i.skip <;> simp [Indent.margin, h]

theorem skip_lineStart (i : Indent) : i.lineStart.2.skip = false := by
  cases h : i.skip <;> simp [Indent.lineStart, h]

variable (s : Session)

theorem flags_writeMargin (rest : Text) :
    (s.writeMargin rest).flags = { s.flags with skip := false } := by
  simp only [flags, writeMargin, write, skip_margin]

theorem flags_writeLineStart (rest : Text) :
    (s.writeLineStart rest).flags = { s.flags with skip := false } := by
  simp only [flags, writeLineStart, write, skip_lineStart]

theorem flags_literal (t : Text) : (s.literal t).flags = s.flags := by
  rw [literal_eq]
  rfl

theorem flags_trimLine : s.trimLine.flags = s.flags := by
  rw [trimLine_eq]
  rfl

theorem flags_rawBlock (content : Text) :
    (s.rawBlock content).flags = s.flags.rawBlock content := by
  cases hlisting : s.context.codeListing with
  | true =>
    rw [rawBlock_listing hlisting, flags_writeMargin]
    simp only [Flags.rawBlock, flags, hlisting, if_true]
  | false =>
    rw [rawBlock_fragment hlisting]
    cases hread : Fragment.read content with
    | heading h =>
      have hheading (closing : Bool) :
          (if closing = true then s.inHeading.trimLine else s.inHeading).flags =
            { s.flags with heading := true } := by
        cases closing
        · rfl
        · exact s.inHeading.flags_trimLine
      simp only [Flags.rawBlock, hread]
      exact (hheading h.closing).trans (by simp [flags, hlisting, Fragment.isHeading])
    | image | rule | other =>
      simp [Flags.rawBlock, hread, flags, write, hlisting, Fragment.isHeading]

theorem flags_openElement (e : Element) (attributes : Attributes) :
    (s.openElement e attributes).1.flags = s.flags.opened e := by
  cases e with
  | para => exact congrArg (fun f : Flags => { f with para := true }) (s.flags_writeLineStart [])
  | codeListing =>
    exact congrArg (fun f : Flags => { f with listing := true }) (s.flags_writeLineStart _)
  | rawHtml =>
    cases hpara : s.context.para with
    | true => simp [openElement, Flags.opened, flags, hpara]
    | false =>
      have hopen : (s.openElement .rawHtml attributes).1 = s.writeLineStart [] := by
        simp [openElement, hpara]
      rw [hopen, flags_writeLineStart]
      simp [Flags.opened, flags, hpara]
  | list kind =>
    simp only [openElement]
    split <;> rfl
  | item => rfl
  | _ => rfl

theorem flags_closeWith (e : Element) (attributes : Attributes) (before : Session) :
    (s.closeWith (before.openElement e attributes).2).flags = s.flags.closed e := by
  cases e with
  | codeListing =>
    exact congrArg (fun f : Flags => { f with listing := false }) (s.flags_writeMargin _)
  | rawHtml =>
    simp only [openElement, closeWith, close]
    split <;> rfl
  | _ => rfl

end Session
end Layout
end DocMarkdown
