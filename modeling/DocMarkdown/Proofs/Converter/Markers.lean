import DocMarkdown.Proofs.Client.Record
import DocMarkdown.Proofs.Converter.Flags
import DocMarkdown.Proofs.Xml.OpenTree

/-! How far the marker of an item reaches. The next margin after a marker is left out, which is
meant for the first block of the item; an item without a block hands this on to what follows it. -/

namespace DocMarkdown
open Layout Xml

namespace Layout.Session
open Tree
variable {s : Session}

theorem Stands.layoutAll {kinds : List ListKind} {level : Int} (h : s.Stands kinds level)
    (content : List Tree) : (layoutAll content s).Stands kinds level := by
  induction content using contentInduction generalizing s kinds level with
  | nil => exact h
  | characters t rest ih => exact ih (h.literal t)
  | raw pieces rest ih => exact ih (h.rawBlock pieces.flatten)
  | element name attributes content rest ihc ih =>
    rw [Tree.layoutAll, layout]
    cases Element.ofTag? name with
    | none => exact ih (ihc h)
    | some e =>
      have hends := s.openElement_action_iff e attributes
      exact ih (Session.Stands.closeWith (ihc (h.openElement e attributes)) hends).2

theorem width_layoutAll (s : Session) (content : List Tree) :
    (layoutAll content s).indent.width = s.indent.width := by
  induction content using contentInduction generalizing s with
  | nil => rfl
  | characters t rest ih => exact (ih _).trans (s.width_literal t)
  | raw pieces rest ih => exact (ih _).trans (s.width_rawBlock pieces.flatten)
  | element name attributes content rest ihc ih =>
    rw [layoutAll, layout]
    cases Element.ofTag? name with
    | none => exact (ih _).trans (ihc s)
    | some e =>
      calc _ = _ := ih _
        _ = _ := width_closeWith _ _
        _ = _ := ihc _
        _ = _ := s.width_openElement e attributes

theorem spaces_layout (s : Session) (t : Tree) :
    (layout t s).indent.spaces = s.indent.spaces := by
  have hs : s.Stands s.context.lists s.indent.level := ⟨rfl, rfl⟩
  have hlevel : (layout t s).indent.level = s.indent.level := (hs.layoutAll [t]).level
  have hwidth : (layout t s).indent.width = s.indent.width := s.width_layoutAll [t]
  rw [Indent.spaces, hlevel, hwidth, Indent.spaces]

theorem text_writeLineStart_eq (s : Session) (rest : Text) :
    (s.writeLineStart rest).text =
      s.text ++ ((if s.indent.skip then [] else '\n' :: s.indent.spaces) ++ rest) := by
  rw [writeLineStart, text_write]
  cases hskip : s.indent.skip <;> simp [Indent.lineStart, hskip, text]

theorem text_writeMargin_eq (s : Session) (rest : Text) :
    (s.writeMargin rest).text =
      s.text ++ ((if s.indent.skip then [] else s.indent.spaces) ++ rest) := by
  rw [writeMargin, text_write]
  cases hskip : s.indent.skip <;> simp [Indent.margin, hskip, text]

end Layout.Session

namespace Stretch
open Tree

theorem raw_run_openTree (o : OpenTree) {s : Stretch} (hraw : s.raw = none) :
    (s.run o.events).raw = none := by
  induction o with
  | top content => rw [OpenTree.events, run_eventsOf content hraw, hraw]
  | inside around name attributes content ih =>
    have hopened : ((s.run around.events).after (.openElement name attributes)).raw = none :=
      (raw_after _ _).trans ih
    rw [OpenTree.events, run_append, run_cons, run_eventsOf content hopened, hopened]

theorem run_closed (around : OpenTree) (name : Text) (attributes : Attributes)
    (content : List Tree) {s : Stretch} (hraw : s.raw = none) :
    s.run ((OpenTree.inside around name attributes content).events ++ [.closeElement name]) =
      { s.run around.events with
        session := layout (element name attributes content) (s.run around.events).session } := by
  have hevents : (OpenTree.inside around name attributes content).events ++ [.closeElement name] =
      around.events ++ eventsOf [element name attributes content] := by
    simp [OpenTree.events, eventsOf, events]
  rw [hevents, run_append, run_eventsOf _ (raw_run_openTree around hraw)]
  rfl

end Stretch

namespace Xml.Event
variable {around content : List Event} {attributes : Attributes}

theorem since_item_end :
    Since (Opens .item) BeginsLine
        (around ++ .openElement Element.item.tag attributes :: content ++
          [.closeElement Element.item.tag]) ↔
      ¬ Occurs (fun mid => BeginsLine
          (around ++ .openElement Element.item.tag attributes :: mid)) content ∨
        Since (Opens .item) (fun mid => BeginsLine
          (around ++ .openElement Element.item.tag attributes :: mid)) content := by
  have htag := Element.ofTag?_tag .item
  have hclose : ∀ es, ¬ Opens .item es (.closeElement Element.item.tag) ∧
      ¬ BeginsLine es (.closeElement Element.item.tag) := by
    intro es
    simp [Opens, BeginsLine, htag]
  have hmarker : Since (Opens .item) BeginsLine
      (around ++ [.openElement Element.item.tag attributes]) := by
    rw [since_concat]
    exact .inl htag
  rw [since_concat, since_cut]
  simp only [hclose, hmarker, not_false_eq_true, true_and, false_or]
  exact or_comm

end Xml.Event

namespace Operation
variable {σ κ : Type}

/-- Where an item ends, the next margin is left out if no line has begun in the item, or none since
the marker of the last item in it. Otherwise what follows is indented as before the item. -/
theorem feed_item (x : σ) (c : Converter κ) (mode : Mode) {d : Document}
    {before after : List Event}
    (hd : d.read.events = before ++ .closeElement Element.item.tag :: after) :
    ∃ around attributes content v w,
      before = (OpenTree.inside around Element.item.tag attributes content).events ∧
      feed none around.events ⟨x, (c.beginCapture mode).start false⟩ = .ok () v ∧
      feed none (before ++ [.closeElement Element.item.tag])
        ⟨x, (c.beginCapture mode).start false⟩ = .ok () w ∧
      let begins mid := Event.BeginsLine
        (around.events ++ .openElement Element.item.tag attributes :: mid)
      let bare := ¬ Event.Occurs begins (Tree.eventsOf content) ∨
        Event.Since (Event.Opens .item) begins (Tree.eventsOf content)
      (w.converter.session.indent.skip = true ↔ bare) ∧
      (bare → ∀ rest,
        (w.converter.session.writeLineStart rest).text = w.converter.session.text ++ rest ∧
        (w.converter.session.writeMargin rest).text = w.converter.session.text ++ rest) ∧
      (¬ bare → ∀ rest,
        (w.converter.session.writeLineStart rest).text =
          w.converter.session.text ++ ('\n' :: v.converter.session.indent.spaces ++ rest) ∧
        (w.converter.session.writeMargin rest).text =
          w.converter.session.text ++ (v.converter.session.indent.spaces ++ rest)) := by
  have hes := d.read_nested
  obtain ⟨p, hp⟩ := d.read_leads
  rw [hd] at hes hp
  obtain ⟨around, attributes, content, rfl⟩ := hp.closing
  let s : Stretch := ⟨.new c.config.indentWidth mode, [], none⟩
  let inner := (OpenTree.inside around Element.item.tag attributes content).events
  have hitem : Event.Nested [] (inner ++ [.closeElement Element.item.tag]) := by
    rw [List.append_cons] at hes
    exact hes.of_append.1
  have haround : Event.Nested [] around.events := hitem.of_append.1.of_append.1
  have hrun := s.run_closed around Element.item.tag attributes content rfl
  refine ⟨around, attributes, content, _, _, rfl, feed_alone x c mode haround,
    feed_alone x c mode hitem, ?_⟩
  have htells : Flags.Tells (inner ++ [.closeElement Element.item.tag])
      (s.run (inner ++ [.closeElement Element.item.tag])).session.flags :=
    Stretch.tells_run (Session.flags_new _ mode) hitem
  have hskip := htells.skip.trans Event.since_item_end
  let ended := (s.run (inner ++ [.closeElement Element.item.tag])).session
  have hspaces : ended.indent.spaces = (s.run around.events).session.indent.spaces := by
    simp only [ended, inner, hrun]
    exact Session.spaces_layout _ _
  refine ⟨hskip, fun hbare rest => ?_, fun hlined rest => ?_⟩
  · have hset : ended.indent.skip = true := hskip.mpr hbare
    have hline := ended.text_writeLineStart_eq rest
    have hmargin := ended.text_writeMargin_eq rest
    rw [if_pos hset] at hline hmargin
    exact ⟨hline, hmargin⟩
  · have hunset : ¬ ended.indent.skip = true := mt hskip.mp hlined
    have hline := ended.text_writeLineStart_eq rest
    have hmargin := ended.text_writeMargin_eq rest
    rw [if_neg hunset, hspaces] at hline hmargin
    exact ⟨hline, hmargin⟩

private def bareItem : Document :=
  .ofString "<r><List-Bullet><Item>a</Item></List-Bullet><Para>b</Para></r>"

private def bareItemEvents : List Event :=
  [.openElement "r".toList [], .openElement "List-Bullet".toList [],
    .openElement "Item".toList [], .characters "a".toList, .closeElement "Item".toList,
    .closeElement "List-Bullet".toList, .openElement "Para".toList [], .characters "b".toList,
    .closeElement "Para".toList, .closeElement "r".toList]

set_option maxRecDepth 6000 in
private theorem bareItem_read : bareItem.read = ⟨bareItemEvents, .complete⟩ := by cbv

theorem feed_bareItem :
    bareItem.read.events =
      bareItemEvents.take 4 ++ .closeElement Element.item.tag :: bareItemEvents.drop 5 ∧
    ∃ w : World Unit Empty,
      feed none (bareItemEvents.take 4 ++ [.closeElement Element.item.tag])
        ⟨(), ((Converter.new {}).beginCapture .markdown).start false⟩ = .ok () w ∧
      w.converter.session.indent.skip = true ∧
      ∀ rest, (w.converter.session.writeLineStart rest).text =
        w.converter.session.text ++ rest := by
  have hread : bareItem.read.events =
      bareItemEvents.take 4 ++ .closeElement Element.item.tag :: bareItemEvents.drop 5 := by
    rw [bareItem_read]
    rfl
  obtain ⟨around, attributes, content, v, w, hbefore, -, hfeed, hskip, hbare, -⟩ :=
    feed_item () (Converter.new {} : Converter Empty) .markdown hread
  have hset : w.converter.session.indent.skip = true := by
    cases hfeed
    rfl
  exact ⟨hread, w, hfeed, hset, fun rest => (hbare (hskip.mp hset) rest).1⟩

end Operation

end DocMarkdown
