import DocMarkdown.Proofs.Layout.Rendering
import DocMarkdown.Proofs.Layout.Trimming
import DocMarkdown.Proofs.Markdown.ImageTag

/-! Raw HTML that becomes an image. Whatever stands on one line between the marks of an image tag
does, and the values are then those of its first reading. It is the tag of an image if they hold no
quote; otherwise quotes, and with them further attributes or tags, end up in a value. -/

namespace DocMarkdown
open Layout Markdown

namespace Markdown.Image
variable {html : Text} {i : Image}

/-- The fragment is the tag of an image: a source, and a title and an alternative text if they are
present, each between its own two quotes. -/
def IsTag (html : Text) : Prop := ∃ i : Image, i.Quoteless ∧ html = i.tag

theorem isTag_iff (h : read html = some i) : IsTag html ↔ i.Quoteless := by
  obtain ⟨hreads, -⟩ := read_first h
  constructor
  · rintro ⟨j, hj, rfl⟩
    have hline : ∀ v ∈ j.values, '\n' ∉ v := by
      obtain ⟨hbody, hline⟩ := reads_iff_body.mp hreads
      rwa [← not_mem_body, body_cancel hbody]
    rw [read_tag hline hj] at h
    cases h
    exact hj
  · exact fun hi => ⟨i, hi, hreads.1⟩

theorem markdown_ne_tag (i j : Image) : i.markdown ≠ j.tag := by
  have hmarkdown : i.markdown.head? = some '!' := by
    have hmark : "![".toList.head? = some '!' := by decide
    simp only [markdown_eq, List.append_assoc, List.head?_append, hmark, Option.some_or]
  have htag : j.tag.head? = some '<' := by
    have hmark : sourceMark.head? = some '<' := by decide
    simp only [tag, List.append_assoc, List.head?_append, hmark, Option.some_or]
  intro h
  rw [h, htag] at hmarkdown
  cases hmarkdown

theorem read_eq_none_iff : read html = none ↔
    ∀ s, '\n' ∉ s → html ≠ sourceMark ++ s ++ endMark := by
  rw [← Option.not_isSome_iff_eq_none, isSome_read_iff]
  simp

end Markdown.Image

namespace Layout.Session
variable {s : Session}

theorem rawBlock_image (hs : s.context.codeListing = false) {html : Text} {i : Image}
    (h : Image.read html = some i) : s.rawBlock html = s.write i.markdown := by
  have hread : Fragment.read html = .image i := by simp only [Fragment.read, h]
  rw [rawBlock_fragment hs, hread]
  rfl

theorem rawBlock_other (hs : s.context.codeListing = false) {html : Text}
    (himage : Image.read html = none) (hrule : isRule html = false)
    (hheading : Heading.read html = none) : s.rawBlock html = s.write html := by
  rw [Prose.rawBlock_plain hs hheading, Prose.translate, himage, hrule]
  rfl

/-- Outside code listings a fragment becomes an image just if it stands between the marks at both
ends on one line. It is then not written as it is, even where it is not the tag of an image, which
is the case if a value holds a quote. Any other fragment is written as it is, unless it is a rule or
the tag of a heading. -/
theorem rawBlock_imageTag (hs : s.context.codeListing = false) (html : Text) :
    (Image.read html = none ↔ ∀ t, '\n' ∉ t → html ≠ sourceMark ++ t ++ endMark) ∧
    (∀ i, Image.read html = some i →
      html = i.tag ∧ (Image.IsTag html ↔ i.Quoteless) ∧
        s.rawBlock html = s.write i.markdown ∧ i.markdown ≠ html) ∧
    (Image.read html = none → isRule html = false → Heading.read html = none →
      s.rawBlock html = s.write html) := by
  refine ⟨Image.read_eq_none_iff, fun i hi => ?_, rawBlock_other hs⟩
  have htag : html = i.tag := (Image.read_first hi).1.1
  exact ⟨htag, Image.isTag_iff hi, rawBlock_image hs hi, htag ▸ i.markdown_ne_tag i⟩

private def otherAttribute : Text := "<img src=\"a\" x=\"b\"/>".toList

theorem rawBlock_otherAttribute :
    let s := Session.new 4 .markdown
    s.context.codeListing = false ∧
    Image.read otherAttribute = some ⟨"a\" x=\"b".toList, none, none⟩ ∧
    ¬ Image.IsTag otherAttribute ∧
    s.rawBlock otherAttribute = s.write "![](a\" x=\"b)".toList ∧
    Image.read "<div>".toList = none ∧ s.rawBlock "<div>".toList = s.write "<div>".toList := by
  intro s
  have hs : s.context.codeListing = false := rfl
  have hread : Image.read otherAttribute = some ⟨"a\" x=\"b".toList, none, none⟩ := by decide
  have hquote : ¬ (⟨"a\" x=\"b".toList, none, none⟩ : Image).Quoteless := by decide
  obtain ⟨-, himage, -⟩ := rawBlock_imageTag hs otherAttribute
  obtain ⟨-, htag, hwrite, -⟩ := himage _ hread
  have hdiv : Image.read "<div>".toList = none := by decide
  obtain ⟨-, -, hother⟩ := rawBlock_imageTag hs "<div>".toList
  exact ⟨hs, hread, mt htag.mp hquote, hwrite, hdiv, hother hdiv (by decide) (by decide)⟩

end Layout.Session
end DocMarkdown
