import DocMarkdown.Proofs.Converter.Stretch

/-! What is written of a document without raw sections. Its text comes through piece by piece in
document order, and in between there are the marks of the layout, which are of a few fixed forms.
In Markdown a special character is therefore part of a mark unless a backslash has been put before
it. -/

namespace DocMarkdown
open Layout Markdown Xml

inductive Mark
  | gap (line : Bool) (spaces : Nat)
  | emphasis
  | strong
  | code
  | linkStart
  | linkEnd (target : Text)
  | fence (language : Text)
  | bullet
  | number

namespace Mark

def text : Mark → Text
  | gap line spaces => (if line then ['\n'] else []) ++ List.replicate spaces ' '
  | emphasis => "*".toList
  | strong => "**".toList
  | code => "`".toList
  | linkStart => "[".toList
  | linkEnd target => "](".toList ++ target ++ [')']
  | fence language => "```".toList ++ language ++ ['\n']
  | bullet => "- ".toList
  | number => "1. ".toList

def ofKind : Option ListKind → Mark
  | some .bullet => bullet
  | _ => number

theorem text_ofKind (kind : Option ListKind) : (ofKind kind).text = marker kind := by
  rcases kind with _ | _ | _ <;> rfl

end Mark

inductive Opening (attributes : Attributes) : Option Element → List Mark → Prop
  | other : Opening attributes none []
  | para (line : Bool) (n : Nat) : Opening attributes (some .para) [.gap line n]
  | emphasis : Opening attributes (some .emphasis) [.emphasis]
  | strong : Opening attributes (some .strong) [.strong]
  | codeVoice : Opening attributes (some .codeVoice) [.code]
  | codeListing (line : Bool) (n : Nat) :
    Opening attributes (some .codeListing)
      [.gap line n, .fence ((attributes.get? "language".toList).getD [])]
  | codeLineNumbered : Opening attributes (some .codeLineNumbered) []
  | link : Opening attributes (some .link) [.linkStart]
  | htmlInline : Opening attributes (some .rawHtml) []
  | htmlBlock (line : Bool) (n : Nat) : Opening attributes (some .rawHtml) [.gap line n]
  | innerList (kind : ListKind) : Opening attributes (some (.list kind)) []
  | outerList (kind : ListKind) : Opening attributes (some (.list kind)) [.gap true 0]
  | item (n : Nat) (kind : Option ListKind) :
    Opening attributes (some .item) [.gap false n, .ofKind kind]

inductive Closing (attributes : Attributes) : Option Element → List Mark → Prop
  | other : Closing attributes none []
  | para : Closing attributes (some .para) [.gap true 0]
  | emphasis : Closing attributes (some .emphasis) [.emphasis]
  | strong : Closing attributes (some .strong) [.strong]
  | codeVoice : Closing attributes (some .codeVoice) [.code]
  | codeListing (n : Nat) : Closing attributes (some .codeListing) [.gap false n, .fence []]
  | codeLineNumbered : Closing attributes (some .codeLineNumbered) []
  | link : Closing attributes (some .link) [.linkEnd ((attributes.get? "href".toList).getD [])]
  | htmlInline : Closing attributes (some .rawHtml) []
  | htmlBlock : Closing attributes (some .rawHtml) [.gap true 0]
  | list (kind : ListKind) : Closing attributes (some (.list kind)) []
  | item : Closing attributes (some .item) []

inductive Piece
  | text (t : Text)
  | mark (m : Mark)

namespace Piece

def written (mode : Mode) : Piece → Text
  | text t => mode.literal t
  | mark m => m.text

def text? : Piece → Option Text
  | text t => some t
  | mark _ => none

end Piece

def Xml.Event.text? : Event → Option Text
  | .characters t => some t
  | _ => none

/-- The pieces written of these events; `opened` are the elements open before them, the innermost
first. Every run of characters is one piece of text, and an element begins and ends with marks. -/
inductive Transcript : List (Text × Attributes) → List Event → List Piece → Prop
  | nil (opened : List (Text × Attributes)) : Transcript opened [] []
  | opening {opened : List (Text × Attributes)} {rest : List Event} {pieces : List Piece}
      {marks : List Mark} (name : Text) (attributes : Attributes)
      (hmarks : Opening attributes (Element.ofTag? name) marks)
      (h : Transcript ((name, attributes) :: opened) rest pieces) :
    Transcript opened (.openElement name attributes :: rest) (marks.map .mark ++ pieces)
  | closing {opened : List (Text × Attributes)} {rest : List Event} {pieces : List Piece}
      {marks : List Mark} (name : Text) (attributes : Attributes)
      (hmarks : Closing attributes (Element.ofTag? name) marks)
      (h : Transcript opened rest pieces) :
    Transcript ((name, attributes) :: opened) (.closeElement name :: rest)
      (marks.map .mark ++ pieces)
  | text {opened : List (Text × Attributes)} {rest : List Event} {pieces : List Piece} (t : Text)
      (h : Transcript opened rest pieces) :
    Transcript opened (.characters t :: rest) (.text t :: pieces)

namespace Layout.Session
variable (s : Session)

theorem text_write_mark (m : Mark) : (s.write m.text).text = s.text ++ [m].flatMap Mark.text := by
  rw [List.flatMap_singleton, text_write]

theorem text_writeMargin (rest : Text) :
    ∃ n, (s.writeMargin rest).text = s.text ++ ((Mark.gap false n).text ++ rest) := by
  have htext : (s.writeMargin rest).text = s.text ++ (s.indent.margin.1 ++ rest) := text_write _ _
  rw [htext]
  by_cases hskip : s.indent.skip = true
  · exact ⟨0, by simp [Indent.margin, hskip, Mark.text]⟩
  · refine ⟨(s.indent.width * max s.indent.level 0).toNat, ?_⟩
    simp [Indent.margin, hskip, Mark.text, Indent.spaces]

theorem text_writeLineStart (rest : Text) :
    ∃ line n, (s.writeLineStart rest).text = s.text ++ ((Mark.gap line n).text ++ rest) := by
  have htext : (s.writeLineStart rest).text = s.text ++ (s.indent.lineStart.1 ++ rest) :=
    text_write _ _
  rw [htext]
  by_cases hskip : s.indent.skip = true
  · exact ⟨false, 0, by simp [Indent.lineStart, hskip, Mark.text]⟩
  · refine ⟨true, (s.indent.width * max s.indent.level 0).toNat, ?_⟩
    simp [Indent.lineStart, hskip, Mark.text, Indent.spaces]

theorem openElement_marks (e : Element) (attributes : Attributes) :
    ∃ marks, Opening attributes (some e) marks ∧
      (s.openElement e attributes).1.text = s.text ++ marks.flatMap Mark.text := by
  cases e with
  | para =>
    obtain ⟨line, n, htext⟩ := s.text_writeLineStart []
    refine ⟨_, .para line n, ?_⟩
    rw [List.append_nil] at htext
    rw [List.flatMap_singleton]
    exact htext
  | emphasis => exact ⟨_, .emphasis, s.text_write_mark .emphasis⟩
  | strong => exact ⟨_, .strong, s.text_write_mark .strong⟩
  | codeVoice => exact ⟨_, .codeVoice, s.text_write_mark .code⟩
  | codeListing =>
    let language := (attributes.get? "language".toList).getD []
    obtain ⟨line, n, htext⟩ := s.text_writeLineStart (codeFence ++ language ++ ['\n'])
    refine ⟨_, .codeListing line n, ?_⟩
    rw [List.flatMap_cons, List.flatMap_singleton]
    exact htext
  | codeLineNumbered => exact ⟨_, .codeLineNumbered, (List.append_nil _).symm⟩
  | link => exact ⟨_, .link, s.text_write_mark .linkStart⟩
  | rawHtml =>
    by_cases hpara : s.context.para = true
    · refine ⟨_, .htmlInline, ?_⟩
      simp [openElement, hpara]
    · obtain ⟨line, n, htext⟩ := s.text_writeLineStart []
      refine ⟨_, .htmlBlock line n, ?_⟩
      simpa [openElement, hpara] using htext
  | list kind =>
    by_cases hlists : s.context.lists = []
    · refine ⟨_, .outerList kind, ?_⟩
      simp only [openElement, hlists, List.isEmpty_nil, if_true]
      exact s.text_write_mark (.gap true 0)
    · refine ⟨_, .innerList kind, ?_⟩
      simp only [openElement, List.isEmpty_eq_false_iff.mpr hlists]
      exact (List.append_nil _).symm
  | item =>
    -- the marker is written one level further out than the blocks of the item
    let outside : Session := { s with indent := s.indent.decrement }
    obtain ⟨n, htext⟩ := outside.text_writeMargin []
    refine ⟨_, .item n s.context.lists.head?, ?_⟩
    rw [List.append_nil] at htext
    rw [List.flatMap_cons, List.flatMap_singleton, Mark.text_ofKind, ← List.append_assoc]
    have hwrite := (outside.writeMargin []).text_write (marker s.context.lists.head?)
    rw [htext] at hwrite
    exact hwrite

theorem closeWith_marks (e : Element) (attributes : Attributes) (opened : Session) :
    ∃ marks, Closing attributes (some e) marks ∧
      (s.closeWith (opened.openElement e attributes).2).text =
        s.text ++ marks.flatMap Mark.text := by
  cases e with
  | para => exact ⟨_, .para, s.text_write_mark (.gap true 0)⟩
  | emphasis => exact ⟨_, .emphasis, s.text_write_mark .emphasis⟩
  | strong => exact ⟨_, .strong, s.text_write_mark .strong⟩
  | codeVoice => exact ⟨_, .codeVoice, s.text_write_mark .code⟩
  | codeListing =>
    obtain ⟨n, htext⟩ := s.text_writeMargin (codeFence ++ ['\n'])
    refine ⟨_, .codeListing n, ?_⟩
    rw [List.flatMap_cons, List.flatMap_singleton, Mark.text, Mark.text]
    exact htext
  | codeLineNumbered => exact ⟨_, .codeLineNumbered, (List.append_nil _).symm⟩
  | link => exact ⟨_, .link, s.text_write_mark (.linkEnd _)⟩
  | rawHtml =>
    by_cases hline : (!opened.context.para && !s.context.htmlHeading) = true
    · refine ⟨_, .htmlBlock, ?_⟩
      simp only [openElement, closeWith, close, hline, if_true]
      exact s.text_write_mark (.gap true 0)
    · refine ⟨_, .htmlInline, ?_⟩
      simp only [openElement, closeWith, close, hline]
      exact (List.append_nil _).symm
  | list kind => exact ⟨_, .list kind, (List.append_nil _).symm⟩
  | item => exact ⟨_, .item, (List.append_nil _).symm⟩

end Layout.Session

def Owes (opened : Text × Attributes) (action : Option Action) : Prop :=
  ∃ s : Session, action = (Element.ofTag? opened.1).bind fun e => (s.openElement e opened.2).2

namespace Stretch

theorem open_marks (s : Stretch) (name : Text) (attributes : Attributes) :
    let s' := s.after (.openElement name attributes)
    ∃ marks, Opening attributes (Element.ofTag? name) marks ∧
      s'.session.text = s.session.text ++ marks.flatMap Mark.text ∧
      ∃ action, Owes (name, attributes) action ∧ s'.ends = action :: s.ends := by
  cases he : Element.ofTag? name with
  | none =>
    rw [after_openOther attributes he]
    refine ⟨[], .other, (List.append_nil _).symm, none, ⟨s.session, ?_⟩, rfl⟩
    rw [he]
    rfl
  | some e =>
    rw [after_openLayout attributes he]
    obtain ⟨marks, hmarks, htext⟩ := s.session.openElement_marks e attributes
    refine ⟨marks, hmarks, htext, _, ⟨s.session, ?_⟩, rfl⟩
    rw [he]
    rfl

theorem close_marks (s : Session) {name : Text} {attributes : Attributes} {action : Option Action}
    (h : Owes (name, attributes) action) :
    ∃ marks, Closing attributes (Element.ofTag? name) marks ∧
      (s.closeWith action).text = s.text ++ marks.flatMap Mark.text := by
  obtain ⟨opened, rfl⟩ := h
  cases he : Element.ofTag? name with
  | none => exact ⟨[], .other, (List.append_nil _).symm⟩
  | some e => exact s.closeWith_marks e attributes opened

theorem flatMap_marks (mode : Mode) (marks : List Mark) :
    (marks.map .mark).flatMap (Piece.written mode) = marks.flatMap Mark.text := by
  rw [List.flatMap_map]
  rfl

theorem run_transcript {names : List Text} {es : List Event} (hes : Event.Nested names es)
    (hopen : .openRaw ∉ es) (hclose : .closeRaw ∉ es) {opened : List (Text × Attributes)}
    (hnames : opened.map Prod.fst = names) {s : Stretch} (hraw : s.raw = none)
    (hends : List.Forall₂ Owes opened s.ends) :
    ∃ pieces, Transcript opened es pieces ∧
      (s.run es).session.text =
        s.session.text ++ pieces.flatMap (Piece.written s.session.mode) := by
  induction hes generalizing opened s with
  | nil => exact ⟨[], .nil opened, (List.append_nil _).symm⟩
  | @opened names name attributes rest _ ih =>
    rw [List.mem_cons, not_or] at hopen hclose
    obtain ⟨marks, hmarks, htext, action, howes, hleft⟩ := s.open_marks name attributes
    have hnames' : ((name, attributes) :: opened).map Prod.fst = name :: names :=
      congrArg (name :: ·) hnames
    have hends' : List.Forall₂ Owes ((name, attributes) :: opened)
        (s.after (.openElement name attributes)).ends := by
      rw [hleft]
      exact .cons howes hends
    have hraw' : (s.after (.openElement name attributes)).raw = none := (s.raw_after _).trans hraw
    obtain ⟨pieces, hpieces, hrest⟩ := ih hopen.2 hclose.2 hnames' hraw' hends'
    refine ⟨_, .opening name attributes hmarks hpieces, ?_⟩
    rw [run_cons, hrest, htext, mode_after, List.flatMap_append, flatMap_marks, List.append_assoc]
  | @closed names name rest _ ih =>
    rw [List.mem_cons, not_or] at hopen hclose
    obtain ⟨⟨n, attributes⟩, outer, rfl, hn, hnames'⟩ := List.map_eq_cons_iff.mp hnames
    obtain rfl : n = name := hn
    obtain ⟨action, ends, howes, hends', hs⟩ := List.forall₂_cons_left_iff.mp hends
    -- the innermost element closes by what it has left, in the session as it is by then
    obtain ⟨marks, hmarks, htext⟩ := close_marks s.session howes
    have hafter := after_close n hs
    have hraw' : (s.after (.closeElement n)).raw = none := (s.raw_after _).trans hraw
    obtain ⟨pieces, hpieces, hrest⟩ := ih hopen.2 hclose.2 hnames' hraw' (by rwa [hafter])
    refine ⟨_, .closing n attributes hmarks hpieces, ?_⟩
    rw [run_cons, hrest, mode_after, List.flatMap_append, flatMap_marks, ← List.append_assoc,
      ← htext, hafter]
  | @text names t rest _ ih =>
    rw [List.mem_cons, not_or] at hopen hclose
    have hafter : s.after (.characters t) = { s with session := s.session.literal t } := by
      simp only [after, hraw]
    have hraw' : (s.after (.characters t)).raw = none := by
      rw [raw_after, Event.rawAfter, hraw, Option.map_none]
    obtain ⟨pieces, hpieces, hrest⟩ := ih hopen.2 hclose.2 hnames hraw' (by rwa [hafter])
    refine ⟨_, .text t hpieces, ?_⟩
    rw [run_cons, hrest, mode_after, List.flatMap_cons, ← List.append_assoc, hafter,
      Session.literal_eq, Session.text_write]
    rfl
  | raw => exact absurd List.mem_cons_self hopen
  | endRaw => exact absurd List.mem_cons_self hclose

end Stretch

namespace Transcript
variable {opened : List (Text × Attributes)} {es : List Event} {pieces : List Piece}

theorem filterMap_marks (marks : List Mark) : (marks.map .mark).filterMap Piece.text? = [] := by
  induction marks with
  | nil => rfl
  | cons m marks ih => exact ih

theorem texts_eq (h : Transcript opened es pieces) :
    pieces.filterMap Piece.text? = es.filterMap Event.text? := by
  induction h with
  | nil opened => rfl
  | opening name attributes _ _ ih =>
    rw [List.filterMap_append, filterMap_marks, List.nil_append, ih]
    rfl
  | closing name attributes _ _ ih =>
    rw [List.filterMap_append, filterMap_marks, List.nil_append, ih]
    rfl
  | text t _ ih =>
    rw [List.filterMap_cons, List.filterMap_cons, ih]
    rfl

end Transcript

theorem exists_piece_of_flatMap {α : Type} {f : α → Text} {l : List α} {before after : Text}
    {c : Char} (h : l.flatMap f = before ++ c :: after) :
    ∃ l₁ a l₂ t u, l = l₁ ++ a :: l₂ ∧ f a = t ++ c :: u ∧
      before = l₁.flatMap f ++ t ∧ after = u ++ l₂.flatMap f := by
  induction l generalizing before with
  | nil => simp at h
  | cons a l ih =>
    rw [List.flatMap_cons] at h
    rcases List.append_eq_append_iff.mp h with ⟨rest, hbefore, hrest⟩ | ⟨rest, ha, hrest⟩
    · obtain ⟨l₁, b, l₂, t, u, hl, hb, hrest', hafter⟩ := ih hrest
      refine ⟨a :: l₁, b, l₂, t, u, by rw [hl, List.cons_append], hb, ?_, hafter⟩
      rw [hbefore, hrest', List.flatMap_cons, List.append_assoc]
    · rcases rest with _ | ⟨d, rest⟩
      · have hrest' : l.flatMap f = [] ++ c :: after := hrest.symm
        obtain ⟨l₁, b, l₂, t, u, hl, hb, hnil, hafter⟩ := ih hrest'
        refine ⟨a :: l₁, b, l₂, t, u, by rw [hl, List.cons_append], hb, ?_, hafter⟩
        rw [List.flatMap_cons, List.append_assoc, ← hnil, ha, List.append_nil, List.append_nil]
      · obtain ⟨rfl, rfl⟩ := List.cons_eq_cons.mp hrest
        exact ⟨[], a, l, before, rest, rfl, ha, rfl, rfl⟩

theorem escape_eq_of_special {t l r : Text} {c : Char} (hc : isSpecial c = true)
    (h : escape t = l ++ c :: r) :
    ∃ u v, t = u ++ c :: v ∧ l = escape u ++ ['\\'] ∧ r = escape v := by
  obtain ⟨u, d, v, l', r', ht, hd, hl, hr⟩ := exists_piece_of_flatMap h
  -- of what is written for one character, only the last is special, after a backslash
  have hlast : d = c ∧ l' = ['\\'] ∧ r' = [] := by
    unfold escapeChar at hd
    by_cases hspecial : isSpecial d = true
    · rw [if_pos hspecial] at hd
      rcases l' with _ | ⟨b, _ | ⟨b', l'⟩⟩
      · obtain ⟨rfl, -⟩ := List.cons_eq_cons.mp hd
        exact absurd hc (by decide)
      · simp only [List.cons_append, List.nil_append, List.cons.injEq] at hd
        obtain ⟨rfl, rfl, rfl⟩ := hd
        exact ⟨rfl, rfl, rfl⟩
      · simp at hd
    · rw [if_neg hspecial] at hd
      rcases l' with _ | ⟨b, l'⟩
      · obtain ⟨rfl, -⟩ := List.cons_eq_cons.mp hd
        exact absurd hc hspecial
      · simp at hd
  obtain ⟨rfl, rfl, rfl⟩ := hlast
  exact ⟨u, v, ht, hl, hr⟩

/-- The character between `before` and `after` comes from a mark, or from a text right after the
backslash that has been put before it. -/
def Located (pieces : List Piece) (before : Text) (c : Char) (after : Text) : Prop :=
  ∃ earlier p later l r, pieces = earlier ++ p :: later ∧ p.written .markdown = l ++ c :: r ∧
    before = earlier.flatMap (Piece.written .markdown) ++ l ∧
    after = r ++ later.flatMap (Piece.written .markdown) ∧
    ((∃ m, p = .mark m) ∨
      ∃ t u, p = .text (t ++ c :: u) ∧ l = escape t ++ ['\\'] ∧ r = escape u)

theorem located_of_special {pieces : List Piece} {before after : Text} {c : Char}
    (hc : isSpecial c = true)
    (h : pieces.flatMap (Piece.written .markdown) = before ++ c :: after) :
    Located pieces before c after := by
  obtain ⟨earlier, p, later, l, r, hpieces, hp, hbefore, hafter⟩ := exists_piece_of_flatMap h
  refine ⟨earlier, p, later, l, r, hpieces, hp, hbefore, hafter, ?_⟩
  cases p with
  | mark m => exact .inl ⟨m, rfl⟩
  | text t =>
    obtain ⟨u, v, rfl, hl, hr⟩ := escape_eq_of_special hc hp
    exact .inr ⟨u, v, rfl, hl, hr⟩

theorem flatMap_unmarked (mode : Mode) (pieces : List Piece) :
    (pieces.filter (·.text?.isSome)).flatMap (Piece.written mode) =
      mode.literal (pieces.filterMap Piece.text?).flatten := by
  rw [← Mode.flatten_map_literal]
  induction pieces with
  | nil => rfl
  | cons p pieces ih =>
    cases p with
    | text t => exact congrArg (mode.literal t ++ ·) ih
    | mark m => exact ih

/-- In a new capture, without a client, a document without raw sections is written as an
interleaving of its text with marks, wherever it is cut off. Every run of characters comes through
as one piece, in order, and without the marks there remains the text of the whole document, escaped
in Markdown. There a special character comes from a mark if no backslash has been put before it. -/
theorem Operation.feed_interleaves {σ κ : Type} (x : σ) (c : Converter κ) (mode : Mode)
    {es : List Event} (hes : Event.Nested [] es) (hopen : .openRaw ∉ es) (hclose : .closeRaw ∉ es) :
    ∃ w pieces, feed none es ⟨x, (c.beginCapture mode).start false⟩ = .ok () w ∧
      w.converter.session.mode = mode ∧
      w.converter.session.text = pieces.flatMap (Piece.written mode) ∧
      Transcript [] es pieces ∧
      pieces.filterMap Piece.text? = es.filterMap Event.text? ∧
      (pieces.filter (·.text?.isSome)).flatMap (Piece.written mode) =
        mode.literal (es.filterMap Event.text?).flatten ∧
      (mode = .markdown → ∀ before ch after, isSpecial ch = true →
        w.converter.session.text = before ++ ch :: after → Located pieces before ch after) := by
  let begun : Converter κ := (c.beginCapture mode).start false
  let s : Stretch := ⟨begun.session, [], none⟩
  have hpasses : ∀ name (attributes : Attributes), Event.openElement name attributes ∈ es →
      Passes (none : Option (Client σ κ)) begun.listening x name := fun _ _ _ _ => .inl rfl
  have hfeed := Operation.feed_stretch (c := begun) (s := s) [] hes rfl
    (Stretch.sound_new begun.session none) hpasses
  obtain ⟨pieces, htranscript, htext⟩ :=
    Stretch.run_transcript (s := s) hes hopen hclose rfl rfl .nil
  have htexts := htranscript.texts_eq
  refine ⟨_, pieces, hfeed, s.mode_run es, htext, htranscript, htexts, ?_, ?_⟩
  · rw [flatMap_unmarked, htexts]
  · rintro rfl before ch after hch hwritten
    exact located_of_special hch (htext.symm.trans hwritten)

private def cutAfterLink : List Event :=
  [.openElement "Para".toList [], .openElement "Link".toList [("href".toList, "u".toList)],
    .characters "a_".toList, .characters "b".toList, .closeElement "Link".toList,
    .characters "-".toList]

theorem Operation.feed_cutAfterLink :
    Event.Nested [] cutAfterLink ∧ .openRaw ∉ cutAfterLink ∧ .closeRaw ∉ cutAfterLink ∧
    ∃ (w : World Unit Empty) (pieces : List Piece),
      feed none cutAfterLink ⟨(), ((Converter.new {}).beginCapture .markdown).start false⟩ =
        .ok () w ∧
      w.converter.session.text = "\n[a\\_b](u)\\-".toList ∧
      w.converter.session.text = pieces.flatMap (Piece.written .markdown) ∧
      Transcript [] cutAfterLink pieces ∧
      pieces.filterMap Piece.text? = ["a_".toList, "b".toList, "-".toList] := by
  have hnested : Event.Nested [] cutAfterLink :=
    .opened _ (.opened _ (.text _ (.text _ (.closed (.text _ (.nil _))))))
  have hopen : .openRaw ∉ cutAfterLink := by decide
  have hclose : .closeRaw ∉ cutAfterLink := by decide
  obtain ⟨w, pieces, hfeed, -, htext, htranscript, htexts, -⟩ :=
    feed_interleaves () (Converter.new {} : Converter Empty) .markdown hnested hopen hclose
  refine ⟨hnested, hopen, hclose, w, pieces, hfeed, ?_, htext, htranscript, htexts⟩
  cases hfeed
  rfl

end DocMarkdown
