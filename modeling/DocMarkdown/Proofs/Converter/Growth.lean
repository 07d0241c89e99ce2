import DocMarkdown.Proofs.Converter.Listings

/-! What has been written of a document stays. Only blanks at the end can be taken back, by the end
of a heading on an empty line, and those are not part of the trimmed text. So the Markdown of a
document that is cut off begins the Markdown of every document that goes on from there. -/

namespace DocMarkdown
open Layout Xml

namespace Text
variable {p : Char → Bool} {t u : Text}

theorem dropEnd_append_of_not_all (h : u.all p = false) (t : Text) :
    dropEnd p (t ++ u) = t ++ dropEnd p u := by
  have hreverse : u.reverse.all p = false := by rwa [List.all_reverse]
  rw [dropEnd, List.reverse_append, dropWhile_append_of_not_all hreverse, List.reverse_append,
    List.reverse_reverse, dropEnd]

theorem dropEnd_prefix_append (p : Char → Bool) (t u : Text) :
    dropEnd p t <+: dropEnd p (t ++ u) := by
  by_cases hu : u.all p = true
  · rw [dropEnd_append_of_all t hu]
  · rw [dropEnd_append_of_not_all (Bool.eq_false_of_not_eq_true hu)]
    have hcut := dropEnd_prefix p t
    exact hcut.trans (List.prefix_append _ _)

theorem exists_dropEnd (p : Char → Bool) (t : Text) :
    ∃ u : Text, t = dropEnd p t ++ u ∧ u.all p = true := by
  refine ⟨(t.reverse.takeWhile p).reverse, ?_, ?_⟩
  · rw [dropEnd, ← List.reverse_append, List.takeWhile_append_dropWhile, List.reverse_reverse]
  · rw [List.all_reverse]
    exact List.all_takeWhile

theorem prefix_of_prefix_append {core : Text} (hcore : core.dropEnd isBlank = core)
    (hu : u.allBlank = true) (h : core <+: t ++ u) : core <+: t := by
  obtain ⟨rest, hrest⟩ := h
  rcases List.append_eq_append_iff.mp hrest with ⟨more, rfl, -⟩ | ⟨blanks, hblanks, rfl⟩
  · exact List.prefix_append core more
  · rw [allBlank, List.all_append, Bool.and_eq_true] at hu
    rw [← hcore, hblanks, dropEnd_append_of_all t hu.1]
    exact dropEnd_prefix isBlank t

theorem trim_prefix_trim (h : t.dropEnd isBlank <+: u) : t.trim <+: u.trim := by
  by_cases hblank : t.allBlank = true
  · have hnil : t.trim = [] := by
      have hall : ∀ c ∈ t, isBlank c = true := List.all_eq_true.mp hblank
      rw [trim, List.dropWhile_eq_nil_iff.mpr hall]
      rfl
    rw [hnil]
    exact List.nil_prefix
  · obtain ⟨blanks, ht, hblanks⟩ := exists_dropEnd isBlank t
    obtain ⟨rest, rfl⟩ := h
    generalize t.dropEnd isBlank = core at ht
    subst ht
    have hcore : core.all isBlank = false := by
      rw [allBlank, List.all_append, hblanks, Bool.and_true] at hblank
      exact Bool.eq_false_of_not_eq_true hblank
    rw [trim, trim, dropWhile_append_of_not_all hcore, dropWhile_append_of_not_all hcore,
      dropEnd_append_of_all _ hblanks]
    exact dropEnd_prefix_append isBlank _ rest

end Text

namespace Layout

theorem kept_beginning {core : Text} (hcore : core.dropEnd Text.isBlank = core) :
    Kept fun _ o _ => core <+: o.reverse.flatten where
  write h _ t := by
    rw [List.reverse_cons, List.flatten_append]
    exact h.trans (List.prefix_append _ _)
  trim {o _} h := by
    cases o with
    | nil => exact h
    | cons last before =>
      rw [trimmed, List.reverse_cons, List.flatten_append, List.flatten_singleton]
      rw [List.reverse_cons, List.flatten_append, List.flatten_singleton] at h
      by_cases hlast : last.allBlank = true
      · exact (Text.prefix_of_prefix_append hcore hlast h).trans (List.prefix_append _ _)
      · rwa [Text.firm, if_neg hlast]

end Layout

namespace Stretch

theorem dropEnd_text_prefix_run (s : Stretch) (es : List Event) :
    s.session.text.dropEnd Text.isBlank <+: (s.run es).session.text := by
  let core := s.session.text.dropEnd Text.isBlank
  have hcore : core.dropEnd Text.isBlank = core := by
    simp [core, Text.dropEnd, List.dropWhile_idempotent]
  have hcut := Text.dropEnd_prefix Text.isBlank s.session.text
  have hself : s.session.Like (fun _ o _ => core <+: o.reverse.flatten) s.session := .mk hcut
  exact (like_run (kept_beginning hcore) hself es).output

theorem captured_prefix_run {s : Stretch} (hs : s.session.mode = .markdown) (es : List Event) :
    s.session.captured <+: (s.run es).session.captured := by
  rw [Session.captured, Session.captured, s.mode_run es, hs]
  exact Text.trim_prefix_trim (s.dropEnd_text_prefix_run es)

end Stretch

theorem Document.verdict_lenient {config : Config} (h : config.strict = false) (d : Document) :
    (d.verdict config).1 = .ok () ∨ ∃ name why, d.read.ending = .unusableEncoding name why := by
  unfold verdict
  cases d.read.ending with
  | complete => exact .inl rfl
  | malformed reason place =>
    simp only [h, Bool.false_eq_true, if_false]
    exact .inl trivial
  | unusableEncoding name why => exact .inr ⟨name, why, rfl⟩

theorem Document.markdown_prefix (config : Config) {d d' : Document}
    (h : d.read.events <+: d'.read.events) : d.markdown config <+: d'.markdown config := by
  obtain ⟨rest, hrest⟩ := h
  rw [markdown, markdown, ← hrest, Stretch.run_append]
  exact Stretch.captured_prefix_run (Stretch.mode_run _ _) rest

namespace Operation
variable {σ κ : Type}

theorem toMarkdown_ok (x : σ) (c : Converter κ) {d : Document}
    (h : (d.verdict c.config).1 = .ok ()) :
    ∃ w, toMarkdown none d ⟨x, c⟩ = .ok (d.markdown c.config) w := by
  have hseen := congrArg Prod.fst (seen_toMarkdown x c d)
  rw [h] at hseen
  cases hr : toMarkdown none d ⟨x, c⟩ with
  | ok t w =>
    rw [hr] at hseen
    cases hseen
    exact ⟨w, rfl⟩
  | error stop w =>
    rw [hr] at hseen
    cases hseen

/-- In a new capture of Markdown, without a client, what is captured of the events of a document
that is cut off begins what is captured after any events that may follow. So, under the lenient
policy, the Markdown of a malformed document begins that of every document with the same events and
possibly more, if its encoding can be used at all. -/
theorem markdown_grows (x : σ) (c : Converter κ) :
    (∀ es rest : List Event, Event.Nested [] (es ++ rest) →
      let begun : Converter κ := (c.beginCapture .markdown).start false
      ∃ v w : Converter κ, feed none es ⟨x, begun⟩ = .ok () ⟨x, v⟩ ∧
        feed none (es ++ rest) ⟨x, begun⟩ = .ok () ⟨x, w⟩ ∧ v.endCapture.1 <+: w.endCapture.1) ∧
    (c.config.strict = false → ∀ d d' : Document,
      (∃ reason place, d.read.ending = .malformed reason place) →
      d.read.events <+: d'.read.events →
      ∃ t u, toMarkdown none d ⟨x, c⟩ = .ok t u ∧
        ((∃ t' u', toMarkdown none d' ⟨x, c⟩ = .ok t' u' ∧ t <+: t') ∨
          ∃ name why, d'.read.ending = .unusableEncoding name why)) := by
  constructor
  · intro es rest hes begun
    let s : Stretch := ⟨begun.session, [], none⟩
    refine ⟨_, _, feed_alone x c .markdown hes.of_append.1, feed_alone x c .markdown hes, ?_⟩
    rw [Converter.endCapture_fst, Converter.endCapture_fst, Stretch.run_append]
    exact Stretch.captured_prefix_run (Stretch.mode_run s es) rest
  · rintro hlenient d d' ⟨reason, place, hending⟩ hevents
    have hverdict : (d.verdict c.config).1 = .ok () := by
      refine (d.verdict_lenient hlenient).resolve_right ?_
      rintro ⟨name, why, hunusable⟩
      rw [hending] at hunusable
      cases hunusable
    obtain ⟨u, hu⟩ := toMarkdown_ok x c hverdict
    refine ⟨_, u, hu, (d'.verdict_lenient hlenient).imp_left fun hverdict' => ?_⟩
    obtain ⟨u', hu'⟩ := toMarkdown_ok x c hverdict'
    exact ⟨_, u', hu', Document.markdown_prefix c.config hevents⟩

private def cutInHtml : Document := .ofString "<r><List-Bullet><Item><Para>a</Para><rawHTML>"

private def emptyLine : List Event :=
  [.openElement "r".toList [], .openElement "List-Bullet".toList [],
    .openElement "Item".toList [], .openElement "Para".toList [], .characters "a".toList,
    .closeElement "Para".toList, .openElement "rawHTML".toList []]

private def headingEnds : Document :=
  .ofString ("<r><List-Bullet><Item><Para>a</Para><rawHTML><![CDATA[</h1>]]>b</rawHTML></Item>" ++
    "</List-Bullet></r>")

private def fromHeading : List Event :=
  [.openRaw, .characters "</h1>".toList, .closeRaw, .characters "b".toList,
    .closeElement "rawHTML".toList, .closeElement "Item".toList,
    .closeElement "List-Bullet".toList, .closeElement "r".toList]

set_option maxRecDepth 8000 in
private theorem cutInHtml_read : cutInHtml.read = ⟨emptyLine, .malformed .noElement ⟨1, 45⟩⟩ := by
  cbv

set_option maxRecDepth 8000 in
private theorem headingEnds_read : headingEnds.read = ⟨emptyLine ++ fromHeading, .complete⟩ := by
  cbv

theorem markdown_headingEnds :
    let c : Converter Empty := .new {}
    let begun : Converter Empty := (c.beginCapture .markdown).start false
    Event.Nested [] (emptyLine ++ fromHeading) ∧ c.config.strict = false ∧
    cutInHtml.read.ending = .malformed .noElement ⟨1, 45⟩ ∧
    cutInHtml.read.events <+: headingEnds.read.events ∧
    (∃ v w : Converter Empty, feed none emptyLine ⟨(), begun⟩ = .ok () ⟨(), v⟩ ∧
      feed none (emptyLine ++ fromHeading) ⟨(), begun⟩ = .ok () ⟨(), w⟩ ∧
      v.session.text = "\n- a\n\n    ".toList ∧ w.session.text = "\n- a\n\nb".toList ∧
      v.endCapture.1 <+: w.endCapture.1) ∧
    ∃ t u t' u', toMarkdown none cutInHtml ⟨(), c⟩ = .ok t u ∧
      toMarkdown none headingEnds ⟨(), c⟩ = .ok t' u' ∧ t <+: t' := by
  intro c begun
  have hending : cutInHtml.read.ending = .malformed .noElement ⟨1, 45⟩ :=
    congrArg Xml.Reading.ending cutInHtml_read
  have hevents : cutInHtml.read.events <+: headingEnds.read.events := by
    rw [cutInHtml_read, headingEnds_read]
    exact List.prefix_append _ _
  have hnested : Event.Nested [] (emptyLine ++ fromHeading) := by
    have hnested := headingEnds.read_nested
    rwa [headingEnds_read] at hnested
  obtain ⟨hgrows, hdocuments⟩ := markdown_grows () c
  obtain ⟨v, w, hv, hw, hprefix⟩ := hgrows emptyLine fromHeading hnested
  obtain ⟨t, u, hu, hlater⟩ := hdocuments rfl cutInHtml headingEnds ⟨_, _, hending⟩ hevents
  refine ⟨hnested, rfl, hending, hevents, ⟨v, w, hv, hw, ?_, ?_, hprefix⟩, t, u, ?_⟩
  · cases hv
    rfl
  · cases hw
    rfl
  · rcases hlater with ⟨t', u', hu', ht⟩ | ⟨name, why, hunusable⟩
    · exact ⟨t', u', hu, hu', ht⟩
    · rw [headingEnds_read] at hunusable
      cases hunusable

end Operation
end DocMarkdown
