import DocMarkdown.Proofs.Converter.Evaluation
import DocMarkdown.Proofs.Layout.Prose
import Mathlib

/-! The layout of prose. A session works with a skip, a level and flags for what is open around;
what it writes for a document is the Markdown that the recursion over the document gives. Each
kind of block leaves the session as it has found it, but for the pieces that it has written. -/

namespace DocMarkdown
open Layout Markdown Xml

variable {σ κ : Type}

namespace Xml.Tree

mutual

def layout : Tree → Session → Session
  | characters t, s => s.literal t
  | raw pieces, s => s.rawBlock pieces.flatten
  | element name attributes content, s =>
    match Element.ofTag? name with
    | some e =>
      let opened := s.openElement e attributes
      (layoutAll content opened.1).closeWith opened.2
    | none => layoutAll content s

def layoutAll : List Tree → Session → Session
  | [], s => s
  | t :: rest, s => layoutAll rest (layout t s)

end

theorem layout_element (e : Element) (attributes : Attributes) (content : List Tree)
    (s : Session) :
    layout (element e.tag attributes content) s =
      (layoutAll content (s.openElement e attributes).1).closeWith
        (s.openElement e attributes).2 := by
  simp only [layout, Element.ofTag?_tag]

theorem evalAll_none (around : Converter κ) (content : List Tree) (x : σ) (s : Session) :
    evalAll none around content (x, s) = (x, layoutAll content s) := by
  induction content using contentInduction generalizing around s with
  | nil => rfl
  | characters t rest ih => exact ih around _
  | raw pieces rest ih => exact ih around _
  | element name attributes content rest ihc ih =>
    have heval : eval none around (element name attributes content) (x, s) =
        (x, layout (element name attributes content) s) := by
      cases he : Element.ofTag? name with
      | some e => simp only [eval_layout he, layout, he, ihc]
      | none => simp only [eval_ignored he, layout, he, ihc]
    rw [evalAll, heval]
    exact ih around _

end Xml.Tree

namespace Prose
open Tree

def flow (width : Nat) (context : Context) (skip : Bool) (output : List Text) : Session :=
  { mode := .markdown, indent := ⟨width, context.lists.length, skip⟩, output, context }

/-- In this context `f` uses up a skip, and writes `t` in pieces. -/
def Writes (width : Nat) (context : Context) (skip : Bool) (t : Text) (f : Session → Session) :
    Prop :=
  ∀ output, ∃ pieces, pieces.reverse.flatten = t ∧
    f (flow width context skip output) = flow width context false (pieces ++ output)

namespace Writes
variable {width : Nat} {context : Context} {skip : Bool} {t u : Text} {f g : Session → Session}

theorem nil : Writes width context false [] id := fun _ => ⟨[], rfl, rfl⟩

theorem comp (hf : Writes width context skip t f) (hg : Writes width context false u g) :
    Writes width context skip (t ++ u) (g ∘ f) := by
  intro output
  obtain ⟨p, hp, hfp⟩ := hf output
  obtain ⟨q, hq, hgq⟩ := hg (p ++ output)
  refine ⟨q ++ p, ?_, ?_⟩
  · rw [List.reverse_append, List.flatten_append, hp, hq]
  · rw [Function.comp_apply, hfp, hgq, List.append_assoc]

theorem one (t : Text) (hf : ∀ output,
    f (flow width context skip output) = flow width context false (t :: output)) :
    Writes width context skip t f :=
  fun output => ⟨[t], by simp, hf output⟩

end Writes

theorem spaces_eq (width depth : Nat) (skip : Bool) :
    (⟨width, depth, skip⟩ : Indent).spaces = indentation width depth := by
  have hlevel : max (depth : Int) 0 = depth := Int.max_eq_left (Int.natCast_nonneg _)
  simp only [Indent.spaces, indentation, hlevel]
  rfl

def lineStart (width depth : Nat) (skip : Bool) : Text :=
  if skip then [] else '\n' :: indentation width depth

theorem writeLineStart_flow (width : Nat) (context : Context) (skip : Bool) (output : List Text)
    (rest : Text) :
    (flow width context skip output).writeLineStart rest =
      flow width context false
        ((lineStart width context.lists.length skip ++ rest) :: output) := by
  cases skip with
  | true => rfl
  | false =>
    have hs := spaces_eq width context.lists.length false
    simp only [Session.writeLineStart, flow, Indent.lineStart, hs]
    rfl

theorem writeMargin_flow (width : Nat) (context : Context) (output : List Text) (rest : Text) :
    (flow width context false output).writeMargin rest =
      flow width context false
        ((indentation width context.lists.length ++ rest) :: output) := by
  have hs := spaces_eq width context.lists.length false
  simp only [Session.writeMargin, flow, Indent.margin, hs]
  rfl

section Fragments
variable {html : Text}

theorem read_of_heading {h : Heading} (hh : Heading.read html = some h) :
    Fragment.read html = .heading h := by
  have himage : Image.read html = none := by
    unfold Heading.read at hh
    split at hh <;> first | rfl | cases hh
  have hrule : isRule html = false := by
    unfold Heading.read at hh
    split at hh
    · simp [isRule]
    · simp [isRule]
    · cases hh
  simp only [Fragment.read, himage, hrule, hh, Bool.false_eq_true, if_false]

theorem rawBlock_plain {s : Session} (hs : s.context.codeListing = false)
    (hh : Heading.read html = none) : s.rawBlock html = s.write (translate html) := by
  simp only [Session.rawBlock, hs, Bool.false_eq_true, if_false, Fragment.read, translate, hh]
  cases Image.read html with
  | some i => rfl
  | none =>
    cases isRule html with
    | true => rfl
    | false => rfl

end Fragments

theorem writes_element {width : Nat} {context inner : Context} {skip within : Bool} {e : Element}
    {attributes : Attributes} {action : Option Action} {content : List Tree} {t u : Text}
    (before after : List Text)
    (hopen : ∀ output, (flow width context skip output).openElement e attributes =
      (flow width inner within (before ++ output), action))
    (hin : Writes width inner within t (layoutAll content))
    (hclose : ∀ output, (flow width inner false output).closeWith action =
      flow width context false (after ++ output))
    (hu : before.reverse.flatten ++ t ++ after.reverse.flatten = u) :
    Writes width context skip u (layout (.element e.tag attributes content)) := by
  intro output
  obtain ⟨pieces, ht, hp⟩ := hin (before ++ output)
  refine ⟨after ++ (pieces ++ before), ?_, ?_⟩
  · rw [List.reverse_append, List.reverse_append, List.flatten_append, List.flatten_append, ht, hu]
  · rw [layout_element, hopen, hp, hclose, List.append_assoc, List.append_assoc]

theorem writes_raw {width : Nat} {context : Context} {pieces : List Text}
    (hc : context.codeListing = false) (hh : Heading.read pieces.flatten = none) :
    Writes width context false (translate pieces.flatten) (layoutAll [.raw pieces]) := by
  refine .one _ fun output => ?_
  change (flow width context false output).rawBlock pieces.flatten = _
  rw [rawBlock_plain hc hh]
  rfl

section Inlines
variable (width : Nat) (lists : List ListKind)

mutual

theorem writes_inline (i : Inline) :
    Writes width { para := true, lists } false i.render (layout i.tree) := by
  cases i with
  | text t => exact .one _ fun _ => rfl
  | span kind attributes content =>
    have hcontent := writes_inlines content
    cases kind <;>
      exact writes_element [_] [_] (fun _ => rfl) hcontent (fun _ => rfl)
        (by simp [Inline.render, Span.delimiter])
  | link attributes content =>
    exact writes_element [_] [_] (fun _ => rfl) (writes_inlines content) (fun _ => rfl)
      (by simp [Inline.render])
  | html attributes pieces plain =>
    have hraw : Writes width { para := true, lists } false _ (layoutAll [.raw pieces]) :=
      writes_raw rfl plain
    have hopen : ∀ output,
        (flow width { para := true, lists } false output).openElement .rawHtml attributes =
          (flow width { para := true, lists } false ([] ++ output), some (.endRawHtml false)) :=
      fun _ => rfl
    exact writes_element [] [] hopen hraw (fun _ => rfl) (by simp [Inline.render])

theorem writes_inlines (content : List Inline) :
    Writes width { para := true, lists } false (Inline.renderAll content)
      (layoutAll (Inline.trees content)) := by
  cases content with
  | nil => exact .nil
  | cons i rest => exact (writes_inline i).comp (writes_inlines rest)

end

end Inlines

section Leads
variable (width : Nat) (lists : List ListKind) (skip : Bool)

theorem writes_line (l : Line) :
    Writes width { codeListing := true, lists } false (l.render width lists.length)
      (layout l.tree) := by
  obtain ⟨numbered, pieces⟩ := l
  refine .one _ fun output => ?_
  have hraw : (flow width { codeListing := true, lists } false output).rawBlock pieces.flatten =
      flow width { codeListing := true, lists } false
        ((indentation width lists.length ++ (pieces.flatten ++ ['\n'])) :: output) :=
    writeMargin_flow width { codeListing := true, lists } output _
  simp only [Line.render, List.append_assoc, Line.tree]
  cases numbered with
  | none => exact hraw
  | some attributes =>
    rw [layout_element]
    exact hraw

theorem writes_lines (lines : List Line) :
    Writes width { codeListing := true, lists } false
      (lines.flatMap (Line.render width lists.length)) (layoutAll (lines.map Line.tree)) := by
  induction lines with
  | nil => exact .nil
  | cons l rest ih => exact (writes_line width lists l).comp ih

theorem openElement_para (attributes : Attributes) (output : List Text) :
    (flow width { lists } skip output).openElement .para attributes =
      (flow width { para := true, lists } false
        ([lineStart width lists.length skip ++ []] ++ output), some .endPara) := by
  simp only [Session.openElement, writeLineStart_flow]
  rfl

theorem openElement_listing (attributes : Attributes) (output : List Text) :
    let language := (attributes.get? "language".toList).getD []
    (flow width { lists } skip output).openElement .codeListing attributes =
      (flow width { codeListing := true, lists } false
        ([lineStart width lists.length skip ++ (codeFence ++ language ++ ['\n'])] ++ output),
        some .endCodeListing) := by
  simp only [Session.openElement, writeLineStart_flow]
  rfl

theorem openElement_html (attributes : Attributes) (output : List Text) :
    (flow width { lists } skip output).openElement .rawHtml attributes =
      (flow width { lists } false ([lineStart width lists.length skip ++ []] ++ output),
        some (.endRawHtml true)) := by
  have hopen : (flow width { lists } skip output).openElement .rawHtml attributes =
      ((flow width { lists } skip output).writeLineStart [], some (.endRawHtml true)) := rfl
  rw [hopen, writeLineStart_flow]
  rfl

theorem close_listing (output : List Text) :
    (flow width { codeListing := true, lists } false output).close .endCodeListing =
      flow width { lists } false
        ([indentation width lists.length ++ (codeFence ++ ['\n'])] ++ output) := by
  simp only [Session.close, writeMargin_flow]
  rfl

theorem trimLine_lineStart (context : Context) (output : List Text) :
    (flow width context false
      ((lineStart width lists.length skip ++ []) :: output)).trimLine =
      flow width context false ((if skip then [] else ['\n']) :: output) := by
  cases skip with
  | true => rfl
  | false =>
    have hblank : Text.allBlank ('\n' :: indentation width lists.length) = true := by
      have hspace : Text.isBlank ' ' = true := by decide
      have hfeed : Text.isBlank '\n' = true := by decide
      simp [Text.allBlank, indentation, hspace, hfeed]
    have hdrop : Text.dropEnd (· == ' ') ('\n' :: indentation width lists.length) = ['\n'] :=
      Text.dropEnd_append_of_all ['\n'] (by simp)
    simp only [Session.trimLine, flow, lineStart, List.append_nil, Bool.false_eq_true, if_false,
      hblank, hdrop, if_true]

theorem rawBlock_heading {html : Text} {h : Heading} (hh : Heading.read html = some h)
    (output : List Text) :
    (flow width { lists } false output).rawBlock html =
      (if h.closing then (flow width { htmlHeading := true, lists } false output).trimLine
        else flow width { htmlHeading := true, lists } false output).write h.markdown := by
  simp only [Session.rawBlock, read_of_heading hh]
  rfl

theorem writes_heading (attributes : Attributes) {pieces : List Text} {h : Heading}
    (hh : Heading.read pieces.flatten = some h) :
    Writes width { lists } skip
      (if h.closing then (if skip then [] else ['\n'])
        else lineStart width lists.length skip ++ h.markdown)
      (layout (.element Element.rawHtml.tag attributes [.raw pieces])) := by
  intro output
  rw [layout_element, openElement_html]
  change ∃ p, _ ∧ ((flow width { lists } false
    ((lineStart width lists.length skip ++ []) :: output)).rawBlock pieces.flatten).close
      (.endRawHtml true) = _
  rw [rawBlock_heading width lists hh]
  cases hc : h.closing with
  | true =>
    refine ⟨[h.markdown, if skip then [] else ['\n']], by simp [Heading.markdown, hc], ?_⟩
    rw [if_pos rfl, trimLine_lineStart]
    rfl
  | false => exact ⟨[h.markdown, lineStart width lists.length skip ++ []], by simp, rfl⟩

theorem writes_lead (l : Lead) :
    Writes width { lists } skip
      (if skip then l.body width lists.length else l.render width lists.length)
      (layout l.tree) := by
  cases l with
  | para attributes content =>
    refine writes_element [_] [['\n']] (openElement_para width lists skip attributes)
      (writes_inlines width lists content) (fun _ => rfl) ?_
    cases skip <;> simp [lineStart, Lead.render, Lead.body, Lead.endsHeading]
  | listing attributes lines =>
    refine writes_element [_] [_] (openElement_listing width lists skip attributes)
      (writes_lines width lists lines) (close_listing width lists) ?_
    cases skip <;>
      simp [lineStart, Lead.render, Lead.body, Lead.endsHeading, renderListing, fence, codeFence]
  | html attributes pieces =>
    cases hh : Heading.read pieces.flatten with
    | none =>
      refine writes_element [_] [['\n']] (openElement_html width lists skip attributes)
        (writes_raw rfl hh) (fun _ => rfl) ?_
      cases skip <;> simp [lineStart, Lead.render, Lead.body, Lead.endsHeading, hh]
    | some h =>
      have hheading := writes_heading width lists skip attributes hh
      cases hc : h.closing <;> cases skip <;>
        simpa [hc, lineStart, Lead.render, Lead.body, Lead.endsHeading, hh, Lead.tree,
          Heading.markdown] using hheading

end Leads

section Blocks
variable (width : Nat)

theorem openElement_list (lists : List ListKind) (kind : ListKind) (attributes : Attributes)
    (output : List Text) :
    (flow width { lists } false output).openElement (.list kind) attributes =
      (flow width { lists := kind :: lists } false
        ((if lists.length = 0 then [['\n']] else []) ++ output), some .endList) := by
  cases lists <;> rfl

theorem close_list (lists : List ListKind) (kind : ListKind) (output : List Text) :
    (flow width { lists := kind :: lists } false output).close .endList =
      flow width { lists } false output := by
  simp [Session.close, flow, Indent.decrement]

theorem openElement_item (lists : List ListKind) (kind : ListKind) (attributes : Attributes)
    (output : List Text) :
    (flow width { lists := kind :: lists } false output).openElement .item attributes =
      (flow width { lists := kind :: lists } true
        ([mark kind, indentation width lists.length ++ []] ++ output), none) := by
  have hlevel : (flow width { lists := kind :: lists } false output).indent.decrement =
      ⟨width, lists.length, false⟩ := by simp [flow, Indent.decrement]
  have hmargin : (⟨width, lists.length, false⟩ : Indent).margin =
      (indentation width lists.length, ⟨width, lists.length, false⟩) := by
    simp only [Indent.margin, spaces_eq, Bool.false_eq_true, if_false]
  simp only [Session.openElement, Session.writeMargin, hlevel, hmargin]
  cases kind <;> rfl

mutual

theorem writes_block (lists : List ListKind) (b : Block) :
    Writes width { lists } false (b.render width lists.length) (layout b.tree) := by
  cases b with
  | lead l => exact writes_lead width lists false l
  | text t => exact .one _ fun _ => rfl
  | list kind attributes items =>
    refine writes_element _ [] (openElement_list width lists kind attributes)
      (writes_items lists kind items) (close_list width lists kind) ?_
    cases lists <;> simp [Block.render]

theorem writes_blocks (lists : List ListKind) (blocks : List Block) :
    Writes width { lists } false (Block.renderAll width lists.length blocks)
      (layoutAll (Block.trees blocks)) := by
  cases blocks with
  | nil => exact .nil
  | cons b rest => exact (writes_block lists b).comp (writes_blocks lists rest)

theorem writes_item (lists : List ListKind) (kind : ListKind) (i : Item) :
    Writes width { lists := kind :: lists } false (i.render width lists.length kind)
      (layout i.tree) := by
  cases i with
  | mk attributes first rest =>
    have hcontent := (writes_lead width (kind :: lists) true first).comp
      (writes_blocks (kind :: lists) rest)
    refine writes_element _ [] (openElement_item width lists kind attributes) hcontent
      (fun _ => rfl) ?_
    simp [Item.render]

theorem writes_items (lists : List ListKind) (kind : ListKind) (items : List Item) :
    Writes width { lists := kind :: lists } false (Item.renderAll width lists.length kind items)
      (layoutAll (Item.trees items)) := by
  cases items with
  | nil => exact .nil
  | cons i rest => exact (writes_item lists kind i).comp (writes_items lists kind rest)

end

end Blocks

end Prose

namespace Operation
open Prose

end Operation
end DocMarkdown
