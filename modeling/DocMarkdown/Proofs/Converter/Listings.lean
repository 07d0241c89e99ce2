import DocMarkdown.Proofs.Converter.Conversion
import DocMarkdown.Proofs.Converter.Markers
import DocMarkdown.Proofs.Layout.Rendering
import DocMarkdown.Proofs.Markdown.Fenced

/-! Code listings in a document. Where every item has begun with a paragraph, a listing is written
as a fenced block that is indented for the lists around it. What is written of it stays in the
Markdown of the document, whatever comes before and after, so that it can be read back from its
lines. -/

namespace DocMarkdown
open Layout Markdown Prose Xml

theorem Layout.Session.not_allBlank_text {s : Session} {p : Text} (hp : p.allBlank = false)
    (h : p ∈ s.output) : s.text.allBlank = false := by
  rw [Text.allBlank, List.all_eq_false] at hp ⊢
  obtain ⟨c, hc, hblank⟩ := hp
  exact ⟨c, List.mem_flatten.mpr ⟨p, List.mem_reverse.mpr h, hc⟩, hblank⟩

namespace Stretch
variable {s : Stretch}

theorem like_after {R : Bool → List Text → List Text → Prop} (k : Kept R)
    (h : s.session.Like R s.session) (e : Event) :
    (s.after e).session.Like R (s.after e).session := by
  cases e with
  | openElement name attributes =>
    cases he : Element.ofTag? name with
    | none => rwa [after_openOther attributes he]
    | some e =>
      rw [after_openLayout attributes he]
      exact (h.openElement k e attributes).1
  | closeElement name =>
    cases hends : s.ends with
    | nil => simpa only [after, hends] using h
    | cons action ends =>
      rw [after_close name hends]
      exact h.closeWith k action
  | characters t =>
    unfold after
    cases s.raw with
    | none => exact h.literal k t
    | some pieces => exact h
  | openRaw => exact h
  | closeRaw => exact h.rawBlock k _

theorem like_run {R : Bool → List Text → List Text → Prop} (k : Kept R)
    (h : s.session.Like R s.session) (es : List Event) :
    (s.run es).session.Like R (s.run es).session := by
  induction es generalizing s with
  | nil => exact h
  | cons e rest ih => exact ih (like_after k h e)

section
variable {p : Text} {before : List Text}

theorem suffix_run (hp : p.allBlank = false) (h : s.session.output = p :: before)
    (es : List Event) : p :: before <:+ (s.run es).session.output := by
  have hself : s.session.Like (fun _ o _ => p :: before <:+ o) s.session :=
    .mk (h.symm ▸ List.suffix_rfl)
  exact (like_run (kept_suffix hp before) hself es).output

theorem text_run (hp : p.allBlank = false) (h : s.session.output = p :: before)
    (es : List Event) : ∃ later, (s.run es).session.text = s.session.text ++ later := by
  obtain ⟨pieces, hpieces⟩ := suffix_run hp h es
  refine ⟨pieces.reverse.flatten, ?_⟩
  rw [Session.text, ← hpieces, List.reverse_append, List.flatten_append, Session.text, h]

end

end Stretch

namespace Xml.Event
variable {es : List Event}

def openLists (es : List Event) : List ListKind := (openNames [] es).filterMap listKind?

def beginsPara : List Event → Bool
  | .characters _ :: rest => beginsPara rest
  | .openElement name _ :: _ => Element.ofTag? name == some .para
  | _ => false

def itemsBegin : List Event → Bool
  | [] => true
  | .openElement name _ :: rest =>
    (Element.ofTag? name != some .item || beginsPara rest) && itemsBegin rest
  | _ :: rest => itemsBegin rest

/-- A block may stand behind the events: no raw section is open, every item so far has begun with a
paragraph, and in a list there is an item open. -/
structure LeadToBlock (es : List Event) : Prop where
  outside : rawOf es = none
  begun : itemsBegin es = true
  listed : openLists es ≠ [] → Element.item.tag ∈ openNames [] es

theorem occurs_of_beginsPara {p : List Event → Event → Prop} (h : beginsPara es = true)
    (hp : ∀ mid name attributes, Element.ofTag? name = some .para →
      p mid (.openElement name attributes)) : Occurs p es := by
  induction es generalizing p with
  | nil => cases h
  | cons e es ih =>
    rw [occurs_cons]
    cases e with
    | characters t => exact .inr (ih h fun mid => hp (.characters t :: mid))
    | openElement name attributes => exact .inl (hp [] name attributes (beq_iff_eq.mp h))
    | _ => cases h

theorem itemsBegin_of_append {around : List Event} (h : itemsBegin (around ++ es) = true) :
    itemsBegin es = true := by
  induction around with
  | nil => exact h
  | cons e around ih =>
    cases e with
    | openElement name attributes => exact ih (Bool.and_eq_true_iff.mp h).2
    | _ => exact ih h

theorem not_since_of_itemsBegin (h : itemsBegin es = true) :
    ¬ Since (Opens .item) BeginsLine es := by
  rintro ⟨around, e, content, rfl, hopen, hline⟩
  cases e with
  | openElement name attributes =>
    have hitem : Element.ofTag? name = some .item := hopen
    have hbegin : beginsPara content = true := by
      simpa [itemsBegin, hitem] using (Bool.and_eq_true_iff.mp (itemsBegin_of_append h)).1
    exact hline (occurs_of_beginsPara hbegin fun _ _ _ hpara => .inl hpara)
  | _ => exact hopen

theorem exists_openElement {name : Text} {names : List Text} (h : name ∈ openNames names es) :
    name ∈ names ∨ ∃ around attributes content,
      es = around ++ .openElement name attributes :: content := by
  induction es generalizing names with
  | nil => exact .inl h
  | cons e es ih =>
    have hrest : ∀ {names}, name ∈ openNames names es →
        name ∈ names ∨ ∃ around attributes content,
          e :: es = around ++ .openElement name attributes :: content := by
      intro names h
      refine (ih h).imp id ?_
      rintro ⟨around, attributes, content, rfl⟩
      exact ⟨e :: around, attributes, content, rfl⟩
    cases e with
    | openElement n attributes =>
      rcases hrest h with hmem | hlater
      · rcases List.mem_cons.mp hmem with rfl | hmem
        · exact .inr ⟨[], attributes, es, rfl⟩
        · exact .inl hmem
      · exact .inr hlater
    | closeElement n => exact (hrest h).imp List.mem_of_mem_tail id
    | characters | openRaw | closeRaw => exact hrest h

end Xml.Event

namespace Stretch
variable {κ : Type} {es : List Event} (c : Converter κ) (mode : Mode)

theorem balanced_run (hes : Event.Nested [] es) :
    (run ⟨.new c.config.indentWidth mode, [], none⟩ es).session.Balanced
      (Event.openLists es) := by
  let begun : Converter κ := (c.beginCapture mode).start false
  have hbegun : Tracks (none : Option (Client Unit κ)) none begun [] [] begun :=
    .begun (.absent false) c mode
  obtain ⟨w, opened, hfeed, hnames, T⟩ := Tracks.run (w := ⟨(), begun⟩) hes rfl hbegun rfl
  cases (Operation.feed_alone () c mode hes).symm.trans hfeed
  have huncaptured : ∀ o ∈ opened, o.2 = false := by
    have hpending := T.pending.imp fun o p hp => And.intro hp.not_captured hp
    rw [List.append_nil] at hpending
    exact ((List.forall₂_and_left _ _).mp hpending).1
  obtain ⟨inner, -, hsessions⟩ := T.sessions
  rw [groups_of_uncaptured huncaptured, hnames] at hsessions
  exact (List.forall₂_cons.mp hsessions).1

theorem spaces_run (hes : Event.Nested [] es) :
    (run ⟨.new c.config.indentWidth mode, [], none⟩ es).session.indent.spaces =
      padding (c.config.indentWidth * (Event.openLists es).length) := by
  rw [Indent.spaces, (balanced_run c mode hes).level, width_run]
  exact spaces_eq c.config.indentWidth (Event.openLists es).length false

theorem skip_run (hes : Event.Nested [] es) (h : Event.LeadToBlock es) :
    (run ⟨.new c.config.indentWidth mode, [], none⟩ es).session.indent.skip = false := by
  have htells := tells_run (Session.flags_new c.config.indentWidth mode) hes
  exact Bool.eq_false_iff.mpr (mt htells.skip.mp (Event.not_since_of_itemsBegin h.begun))

theorem not_allBlank_run (width : Nat) (hitem : Element.item.tag ∈ Event.openNames [] es) :
    (run ⟨.new width mode, [], none⟩ es).session.text.allBlank = false := by
  obtain ⟨around, attributes, content, rfl⟩ :=
    (Event.exists_openElement hitem).resolve_left List.not_mem_nil
  let s : Stretch := run ⟨.new width mode, [], none⟩ around
  have hmarker : (marker s.session.context.lists.head?).allBlank = false := by
    rcases s.session.context.lists.head? with _ | _ | _ <;> decide
  have hopened : (s.after (.openElement Element.item.tag attributes)).session.output =
      marker s.session.context.lists.head? :: s.session.indent.decrement.margin.1 ::
        s.session.output := by
    rw [after_openLayout attributes (Element.ofTag?_tag .item)]
    exact s.session.openElement_item_output attributes
  rw [run_append, run_cons]
  have hsuffix := suffix_run hmarker hopened content
  exact Session.not_allBlank_text hmarker (hsuffix.subset List.mem_cons_self)

end Stretch

namespace Layout.Session
open Tree
variable {s : Session}

theorem writeMargin_of_unskipped (s : Session) (h : s.indent.skip = false) (t : Text) :
    s.writeMargin t = s.write (s.indent.spaces ++ t) := by
  simp [writeMargin, Indent.margin, h]

theorem writeLineStart_of_unskipped (s : Session) (h : s.indent.skip = false) (t : Text) :
    s.writeLineStart t = s.write ('\n' :: (s.indent.spaces ++ t)) := by
  simp [writeLineStart, Indent.lineStart, h]

def codeLine (s : Session) (l : Line) : Text := s.indent.spaces ++ (l.pieces.flatten ++ ['\n'])

theorem layoutAll_lines (s : Session) (code : List Line) (hlisting : s.context.codeListing = true)
    (hskip : s.indent.skip = false) :
    layoutAll (code.map Line.tree) s =
      { s with output := (code.map s.codeLine).reverse ++ s.output } := by
  induction code generalizing s with
  | nil => rfl
  | cons l rest ih =>
    have hraw : s.rawBlock l.pieces.flatten = s.write (s.codeLine l) := by
      rw [rawBlock_listing hlisting, s.writeMargin_of_unskipped hskip, codeLine]
    have hline : layout l.tree s = s.write (s.codeLine l) := by
      obtain ⟨numbered, pieces⟩ := l
      cases numbered with
      | none => exact hraw
      | some attributes =>
        simp only [Line.tree]
        rw [layout_element]
        exact hraw
    rw [List.map_cons, layoutAll, hline, ih (s.write (s.codeLine l)) hlisting hskip,
      List.map_cons, List.reverse_cons, List.append_assoc]
    rfl

theorem output_listing (hskip : s.indent.skip = false) (attributes : Attributes)
    (code : List Line) :
    let language := (attributes.get? "language".toList).getD []
    (layout (Lead.listing attributes code).tree s).output =
      (s.indent.spaces ++ (codeFence ++ ['\n'])) :: ((code.map s.codeLine).reverse ++
        ('\n' :: (s.indent.spaces ++ (codeFence ++ language ++ ['\n']))) :: s.output) := by
  intro language
  let opening : Text := '\n' :: (s.indent.spaces ++ (codeFence ++ language ++ ['\n']))
  let within : Session :=
    { s with output := opening :: s.output, context := { s.context with codeListing := true } }
  let read : Session := { within with output := (code.map s.codeLine).reverse ++ within.output }
  have hopen : s.openElement .codeListing attributes = (within, some .endCodeListing) := by
    simp only [openElement, s.writeLineStart_of_unskipped hskip]
    rfl
  have hlines : layoutAll (code.map Line.tree) within = read :=
    within.layoutAll_lines code rfl hskip
  have hclose : (read.close .endCodeListing).output =
      (s.indent.spaces ++ (codeFence ++ ['\n'])) :: read.output := by
    rw [close, read.writeMargin_of_unskipped hskip]
    rfl
  rw [Lead.tree, layout_element, hopen, hlines]
  exact hclose

theorem text_listing (hskip : s.indent.skip = false) {n : Nat}
    (hspaces : s.indent.spaces = padding n) (attributes : Attributes) (code : List Line) :
    let language := (attributes.get? "language".toList).getD []
    (layout (Lead.listing attributes code).tree s).text =
      s.text ++ '\n' :: (fencedBlock n language (code.map (·.pieces.flatten)) ++ ['\n']) := by
  have hcode : (code.map s.codeLine).flatten =
      (code.map (·.pieces.flatten)).flatMap fun t => padding n ++ t ++ ['\n'] := by
    induction code with
    | nil => rfl
    | cons l code ih =>
      rw [List.map_cons, List.flatten_cons, ih, codeLine, hspaces]
      simp
  rw [text, output_listing hskip, hspaces]
  simp [text, fencedBlock, hcode, codeFence, fence]

end Layout.Session

namespace Stretch

theorem text_run_listing {s : Stretch} (hraw : s.raw = none)
    (hskip : s.session.indent.skip = false) {n : Nat}
    (hspaces : s.session.indent.spaces = padding n) (attributes : Attributes)
    (code : List Line) (after : List Event) :
    let language := (attributes.get? "language".toList).getD []
    ∃ later, (s.run ((Lead.listing attributes code).tree.events ++ after)).session.text =
      s.session.text ++
        '\n' :: (fencedBlock n language (code.map (·.pieces.flatten)) ++ '\n' :: later) := by
  intro language
  let tree := (Lead.listing attributes code).tree
  have hended : (s.run tree.events).session = tree.layout s.session := by
    rw [← Tree.eventsOf_singleton, Tree.run_eventsOf [tree] hraw]
    rfl
  have hfence : Text.allBlank (s.session.indent.spaces ++ (codeFence ++ ['\n'])) = false := by
    simp [Text.allBlank, codeFence, Text.isBlank]
  have houtput := s.session.output_listing hskip attributes code
  obtain ⟨later, htext⟩ := text_run hfence ((congrArg _ hended).trans houtput) after
  refine ⟨later, ?_⟩
  rw [run_append, htext, hended, s.session.text_listing hskip hspaces]
  simp [language]

end Stretch

namespace Operation
variable {σ κ : Type}

/-- A code listing stands in the Markdown of a document as a fenced block, behind what has been
written before it. The fences and the first line of every section of code have the indentation of
the lists around; further lines of a section are written as they are. Read back, the block gives
the lines of the code, further lines short of the indentation, up to the first line that closes it.
So all lines are indented and the code comes back just if no line of it closes the block and no
section has further lines, unless there is no indentation. -/
theorem toMarkdown_listing (x : σ) (c : Converter κ) {d : Document} {before after : List Event}
    {attributes : Attributes} {code : List Line} {closes : Text → Bool}
    (hd : d.read.events = before ++ ((Lead.listing attributes code).tree.events ++ after))
    (hblock : Event.LeadToBlock before)
    (hlanguage : '\n' ∉ (attributes.get? "language".toList).getD [])
    (hcloses : closes fence = true) :
    let n := c.config.indentWidth * (Event.openLists before).length
    let sections := code.map (·.pieces.flatten)
    let block := blockLines n ((attributes.get? "language".toList).getD []) sections
    ∃ v t below,
      feed none before ⟨x, (c.reset.beginCapture .markdown).start false⟩ = .ok () v ∧
      seen (fun t _ => t) (toMarkdown none d ⟨x, c⟩) = ((d.verdict c.config).1.map fun _ => t,
        c.reports.reverse ++ (d.verdict c.config).2.toList) ∧
      t.lines = v.converter.session.text.linesAbove ++ (block ++ below) ∧
      readFenced closes n (block ++ below) =
        some ((sections.flatMap (keptLines n)).takeWhile (!closes ·)) ∧
      ((∀ line ∈ block, padding n <+: line) ∧
        readFenced closes n (block ++ below) = some (sections.flatMap Text.lines) ↔
        (n = 0 ∨ ∀ t ∈ sections, '\n' ∉ t) ∧
          ∀ line ∈ sections.flatMap Text.lines, closes line = false) := by
  intro n sections block
  have hnested := d.read_nested
  rw [hd] at hnested
  have hes : Event.Nested [] before := hnested.of_append.1
  let begun : Stretch := ⟨.new c.config.indentWidth .markdown, [], none⟩
  let s := begun.run before
  have hraw : s.raw = none := (begun.raw_run before).trans hblock.outside
  have hskip : s.session.indent.skip = false := Stretch.skip_run c .markdown hes hblock
  have hspaces : s.session.indent.spaces = padding n := Stretch.spaces_run c .markdown hes
  have hindented : s.session.text.allBlank = true → n = 0 := by
    intro hblank
    by_contra hn
    have hlists : Event.openLists before ≠ [] := fun hlists => hn (by simp [n, hlists])
    have hwritten := Stretch.not_allBlank_run .markdown c.config.indentWidth (hblock.listed hlists)
    rw [hblank] at hwritten
    cases hwritten
  obtain ⟨later, hlater⟩ := Stretch.text_run_listing hraw hskip hspaces attributes code after
  obtain ⟨below, hbelow⟩ := lines_trim_fencedBlock hlanguage hindented sections later
  have hmarkdown : d.markdown c.config = Text.trim (begun.run d.read.events).session.text := by
    rw [Document.markdown, Session.captured, begun.mode_run d.read.events]
    rfl
  rw [hd, Stretch.run_append, hlater] at hmarkdown
  refine ⟨_, d.markdown c.config, below, feed_alone x c.reset .markdown hes,
    seen_toMarkdown x c d, ?_, readFenced_blockLines n _ sections below hcloses,
    survives_iff n _ sections below hcloses⟩
  rw [hmarkdown]
  exact hbelow

private def inItem : List Event :=
  [.openElement "r".toList [], .openElement "List-Bullet".toList [],
    .openElement "Item".toList [], .openElement "Para".toList [], .characters "a".toList,
    .closeElement "Para".toList]

private def outOfItem : List Event :=
  [.closeElement "Item".toList, .closeElement "List-Bullet".toList, .closeElement "r".toList]

private theorem inItem_leads : Event.LeadToBlock inItem := by
  constructor <;> decide

private def listedCode : Document :=
  .ofString ("<r><List-Bullet><Item><Para>a</Para><CodeListing language=\"c\">" ++
    "<zCodeLineNumbered><![CDATA[ x]]></zCodeLineNumbered><![CDATA[*y]]></CodeListing></Item>" ++
    "</List-Bullet></r>")

private def inC : Attributes := [("language".toList, "c".toList)]

private def twoLines : List Line := [⟨some [], [" x".toList]⟩, ⟨none, ["*y".toList]⟩]

set_option maxRecDepth 8000 in
private theorem listedCode_read : listedCode.read =
    ⟨inItem ++ ([.openElement "CodeListing".toList [("language".toList, "c".toList)],
      .openElement "zCodeLineNumbered".toList [], .openRaw, .characters " x".toList, .closeRaw,
      .closeElement "zCodeLineNumbered".toList, .openRaw, .characters "*y".toList, .closeRaw,
      .closeElement "CodeListing".toList] ++ outOfItem), .complete⟩ := by cbv

theorem toMarkdown_listedCode :
    listedCode.read.events = inItem ++ ((Lead.listing inC twoLines).tree.events ++ outOfItem) ∧
    Event.LeadToBlock inItem ∧ '\n' ∉ (inC.get? "language".toList).getD [] ∧
    isClosingFence fence = true ∧
    let block := ["    ```c".toList, "     x".toList, "    *y".toList, "    ```".toList]
    ∃ t below, (seen (fun t _ => t)
        (toMarkdown none listedCode (⟨(), .new {}⟩ : World Unit Empty))).1 = .ok t ∧
      t.lines = ["- a".toList, []] ++ (block ++ below) ∧
      readFenced isClosingFence 4 (block ++ below) = some [" x".toList, "*y".toList] := by
  have hread : listedCode.read.events =
      inItem ++ ((Lead.listing inC twoLines).tree.events ++ outOfItem) := by
    rw [listedCode_read]
    rfl
  have hlanguage : '\n' ∉ (inC.get? "language".toList).getD [] := by decide
  have hfence : isClosingFence fence = true := by decide
  obtain ⟨v, t, below, hfeed, hseen, hlines, hcode, -⟩ :=
    toMarkdown_listing () (.new {} : Converter Empty) hread inItem_leads hlanguage hfence
  have hverdict : listedCode.verdict (Converter.new {} : Converter Empty).config =
      (.ok (), none) := by
    rw [Document.verdict, listedCode_read]
  have htext : v.converter.session.text = "\n- a\n".toList := by
    cases hfeed
    rfl
  have habove : Text.linesAbove "\n- a\n".toList = ["- a".toList, []] := by decide
  have hn : (Converter.new {} : Converter Empty).config.indentWidth *
      (Event.openLists inItem).length = 4 := by decide
  have hblock : blockLines 4 ((inC.get? "language".toList).getD [])
      (twoLines.map (·.pieces.flatten)) =
        ["    ```c".toList, "     x".toList, "    *y".toList, "    ```".toList] := by decide
  have hkept : ((twoLines.map (·.pieces.flatten)).flatMap (keptLines 4)).takeWhile
      (!isClosingFence ·) = [" x".toList, "*y".toList] := by decide
  rw [hn, hblock, htext, habove] at hlines
  rw [hn, hblock, hkept] at hcode
  refine ⟨hread, inItem_leads, hlanguage, hfence, t, below, ?_, hlines, hcode⟩
  rw [hseen, hverdict]
  rfl

private def furtherLine : Document :=
  .ofString ("<r><List-Bullet><Item><Para>a</Para><CodeListing><![CDATA[x\n  y]]></CodeListing>" ++
    "</Item></List-Bullet></r>")

set_option maxRecDepth 8000 in
private theorem furtherLine_read : furtherLine.read =
    ⟨inItem ++ ([.openElement "CodeListing".toList [], .openRaw, .characters "x\n  y".toList,
      .closeRaw, .closeElement "CodeListing".toList] ++ outOfItem), .complete⟩ := by cbv

private def fenceInCode : Document :=
  .ofString "<CodeListing><![CDATA[```]]></CodeListing>"

set_option maxRecDepth 4000 in
private theorem fenceInCode_read : fenceInCode.read =
    ⟨[.openElement "CodeListing".toList [], .openRaw, .characters "```".toList, .closeRaw,
      .closeElement "CodeListing".toList], .complete⟩ := by cbv

theorem markdown_furtherLine :
    (Event.LeadToBlock inItem ∧
      furtherLine.read.events = inItem ++
        ((Lead.listing [] [⟨none, ["x\n  y".toList]⟩]).tree.events ++ outOfItem) ∧
      ∃ block : List Text,
        (Converter.markdown {} furtherLine).1.map Text.lines =
          .ok (["- a".toList, []] ++ block) ∧
        ¬ (∀ line ∈ block, padding 4 <+: line) ∧
        readFenced isClosingFence 4 block ≠ some (Text.lines "x\n  y".toList)) ∧
    Event.LeadToBlock [] ∧
      fenceInCode.read.events = (Lead.listing [] [⟨none, ["```".toList]⟩]).tree.events ∧
      ∃ block : List Text,
        (Converter.markdown {} fenceInCode).1.map Text.lines = .ok block ∧
        readFenced isClosingFence 0 block ≠ some (Text.lines "```".toList) := by
  refine ⟨⟨inItem_leads, by rw [furtherLine_read]; rfl, ?_⟩, by constructor <;> decide,
    by rw [fenceInCode_read]; rfl, ?_⟩
  · refine ⟨["    ```".toList, "    x".toList, "  y".toList, "    ```".toList], ?_, by decide,
      by decide⟩
    rw [Converter.markdown_alone, Document.markdown, Document.verdict, furtherLine_read]
    decide
  · refine ⟨["```".toList, "```".toList, "```".toList], ?_, by decide⟩
    rw [Converter.markdown_alone, Document.markdown, Document.verdict, fenceInCode_read]
    decide

end Operation

end DocMarkdown
