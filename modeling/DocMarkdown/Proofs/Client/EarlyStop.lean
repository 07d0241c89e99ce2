import DocMarkdown.Proofs.Client.Record
import DocMarkdown.Proofs.Client.Signature
import DocMarkdown.Proofs.Xml.Beginning
import DocMarkdown.Proofs.Xml.OpenTree

/-! Where the extractor stops. The first signature that closes is handed over as its content reads
in a session of its own, whatever elements are open around it, and nothing that follows its end in
the text is looked at. If no signature closes, there is none, and the document ends as it does
without a client. -/

namespace DocMarkdown
open Layout Xml Operation Tree

theorem Part.ofTag?_eq_some {name : Text} {part : Part} (h : Part.ofTag? name = some part) :
    name = part.tag := by
  have hfound := List.find?_some h
  simpa using (beq_iff_eq.mp hfound).symm

def Xml.Event.signatureEnd : Event := .closeElement Part.declaration.tag

namespace Xml.Tree

theorem close_mem_of_open {content : List Tree} {name : Text} {attributes : Attributes}
    (h : Event.openElement name attributes ∈ eventsOf content) :
    Event.closeElement name ∈ eventsOf content := by
  induction content using contentInduction with
  | nil => cases h
  | characters t rest ih =>
    simp only [eventsOf, events, List.mem_append, List.mem_singleton, reduceCtorEq, false_or] at h ⊢
    exact ih h
  | raw pieces rest ih =>
    simp only [eventsOf, events, List.mem_append, List.mem_cons, List.mem_map, reduceCtorEq,
      and_false, exists_false, List.not_mem_nil, false_or, or_false] at h ⊢
    exact ih h
  | element n a content rest ihc ih =>
    simp only [eventsOf, events, List.mem_append, List.mem_cons, List.not_mem_nil, or_false] at h ⊢
    rcases h with ((h | h) | h) | h
    · cases h
      exact .inl (.inr rfl)
    · exact .inl (.inl (.inr (ihc h)))
    · cases h
    · exact .inr (ih h)

theorem part?_ne_of_end {content : List Tree} (h : Event.signatureEnd ∉ eventsOf content) :
    ∀ e ∈ eventsOf content, e.part? ≠ some .declaration := by
  intro e he hpart
  obtain ⟨name, attributes, rfl, hname⟩ := Event.open_of_part hpart
  obtain rfl := Part.ofTag?_eq_some hname
  exact h (close_mem_of_open he)

end Xml.Tree

namespace Extractor
variable (width : Nat) (inside : Bool) {s : Stretch}

theorem find_nested {names : List Text} {es : List Event} (hes : Event.Nested names es)
    (hnames : names.length ≤ s.ends.length) (hplain : ∀ e ∈ es, e.part? ≠ some .declaration)
    (rest : List Event) :
    find width inside s (es ++ rest) = find width inside (s.run es) rest := by
  induction es generalizing s names with
  | nil => rfl
  | cons e es ih =>
    obtain ⟨hcloses, names', hlength, hrest⟩ := hes.of_cons
    obtain ⟨he, hplain⟩ := List.forall_mem_cons.mp hplain
    have hends : e.closes = true → inside = true → s.ends ≠ [] := by
      intro hclose _ hnil
      rw [hnil] at hnames
      exact hcloses hclose (List.length_eq_zero_iff.mp (Nat.le_zero.mp hnames))
    rw [List.cons_append, find_next width inside s e he hends]
    refine ih hrest ?_ hplain
    rw [hlength, s.length_ends_after]
    cases e with
    | openElement | closeElement =>
      simp only [Event.depthAfter]
      omega
    | _ => exact hnames

theorem find_eventsOf {content : List Tree} (hend : Event.signatureEnd ∉ eventsOf content)
    (hraw : s.raw = none) (rest : List Event) :
    find width inside s (eventsOf content ++ rest) =
      find width inside { s with session := layoutAll content s.session } rest := by
  have hnested : Event.Nested [] (eventsOf content) := by
    simpa using nested_eventsOf [] content (.nil [])
  rw [find_nested _ _ hnested (Nat.zero_le _) (part?_ne_of_end hend), run_eventsOf content hraw]

theorem find_openTree {o : OpenTree} (hend : Event.signatureEnd ∉ o.events) (hraw : s.raw = none)
    (rest : List Event) :
    ∃ inside' s', s'.raw = none ∧
      find width inside s (o.events ++ rest) = find width inside' s' rest := by
  induction o generalizing rest with
  | top content =>
    exact ⟨inside, { s with session := layoutAll content s.session }, hraw,
      find_eventsOf width inside hend hraw rest⟩
  | inside around name attributes content ih =>
    simp only [OpenTree.events, List.mem_append, List.mem_cons, not_or] at hend
    obtain ⟨within, s', hraw', hfind⟩ :=
      ih hend.1 (.openElement name attributes :: (eventsOf content ++ rest))
    rw [OpenTree.events, List.append_assoc, List.cons_append, hfind]
    -- a signature begins a session of its own, any other element goes on with the one around
    by_cases hname : Part.ofTag? name = some .declaration
    · let opened : Stretch := { session := .new width .text, raw := s'.raw }
      rw [find_opened _ _ _ hname]
      exact ⟨true, { opened with session := layoutAll content opened.session }, hraw',
        find_eventsOf width true (s := opened) hend.2.2 hraw' rest⟩
    · let opened := s'.after (.openElement name attributes)
      have hopened : opened.raw = none := (s'.raw_after _).trans hraw'
      have hpart : (Event.openElement name attributes).part? ≠ some .declaration := hname
      rw [find_next width within s' _ hpart (by simp [Event.closes])]
      exact ⟨within, { opened with session := layoutAll content opened.session }, hopened,
        find_eventsOf width within hend.2.2 hopened rest⟩

theorem find_first_end {around : OpenTree} {attributes : Attributes} {content : List Tree}
    (hend : Event.signatureEnd ∉
      (OpenTree.inside around Part.declaration.tag attributes content).events)
    (hraw : s.raw = none) (after : List Event) :
    find width inside s
        ((OpenTree.inside around Part.declaration.tag attributes content).events ++
          Event.signatureEnd :: after) =
      some (layoutAll content (.new width .text)).captured := by
  simp only [OpenTree.events, List.mem_append, List.mem_cons, not_or] at hend
  obtain ⟨within, s', hraw', hfind⟩ := find_openTree width inside hend.1 hraw
    (.openElement Part.declaration.tag attributes ::
      (eventsOf content ++ Event.signatureEnd :: after))
  let opened : Stretch := { session := .new width .text, raw := s'.raw }
  have hcontent := find_eventsOf width true (s := opened) hend.2.2 hraw'
    (Event.signatureEnd :: after)
  rw [OpenTree.events, List.append_assoc, List.cons_append, hfind,
    find_opened _ _ _ (Part.ofTag?_tag .declaration), hcontent]
  exact find_closed width rfl _ after

theorem find_rawSoFar (raw : Option (List Text)) (s : Stretch) :
    find width inside s (Event.rawSoFar raw) = none := by
  cases raw with
  | none => rfl
  | some pieces =>
    rw [Event.rawSoFar,
      find_next width inside s .openRaw (by simp [Event.part?]) (by simp [Event.closes])]
    generalize s.after .openRaw = s
    induction pieces generalizing s with
    | nil => rfl
    | cons t pieces ih =>
      rw [List.map_cons, find_next width inside s (.characters t) (by simp [Event.part?])
        (by simp [Event.closes])]
      exact ih (s.after (.characters t))

theorem find_without_end {es : List Event} {p : Site} (hes : Event.Leads es.reverse p)
    (hend : Event.signatureEnd ∉ es) (hraw : s.raw = none) : find width inside s es = none := by
  obtain ⟨o, raw, -, -, hevents⟩ := hes.openTree
  rw [List.reverse_reverse] at hevents
  rw [hevents, List.mem_append, not_or] at hend
  obtain ⟨within, s', -, hfind⟩ := find_openTree width inside hend.1 hraw
    (Event.rawSoFar raw)
  rw [hevents, hfind]
  exact find_rawSoFar width within raw s'

end Extractor

namespace Declaration
open Event (signatureEnd)

theorem extract_of_find {config : Config} {d : Document} {found : Option Text}
    (hfind : Extractor.find config.indentWidth false
      { session := .new config.indentWidth .markdown } d.read.events = found) :
    extract config d = Extractor.outcome config d found := by
  rw [extract_eq_seen]
  exact Extractor.seen_extract (.new config) d hfind

theorem extract_first_end {around : OpenTree} {attributes : Attributes} {content : List Tree}
    {d : Document} {after : List Event}
    (hend : signatureEnd ∉ (OpenTree.inside around Part.declaration.tag attributes content).events)
    (hevents : d.read.events =
      (OpenTree.inside around Part.declaration.tag attributes content).events ++
        signatureEnd :: after) (config : Config) :
    ∃ t, extract config d = (.ok (some t), []) ∧
      t = (layoutAll content (.new config.indentWidth .text)).captured ∧
      ∀ pieces : List Text, content = pieces.map .characters → t = pieces.flatten := by
  have hfind := Extractor.find_first_end config.indentWidth false
    (s := { session := .new config.indentWidth .markdown }) hend rfl after
  refine ⟨_, extract_of_find (hevents ▸ hfind), rfl, ?_⟩
  rintro pieces rfl
  exact Schema.captured_characters config.indentWidth pieces

theorem extract_without_end {d : Document}
    (hd : ∀ name why, d.read.ending ≠ .unusableEncoding name why)
    (hend : signatureEnd ∉ d.read.events) (config : Config) :
    d.read.ending = .complete ∧ extract config d = (.ok none, []) ∨
    ∃ reason place, d.read.ending = .malformed reason place ∧
      let m := Malformed.ofReading reason place d
      extract config d =
        if config.strict then (.error (.malformed m), []) else (.ok none, [m]) := by
  obtain ⟨p, hleads⟩ := d.read_leads
  have hextract := extract_of_find (Extractor.find_without_end config.indentWidth false
    (s := { session := .new config.indentWidth .markdown }) hleads hend rfl)
  cases hending : d.read.ending with
  | complete =>
    have hverdict : d.verdict config = (.ok (), none) := by
      simp only [Document.verdict, hending]
    rw [Extractor.outcome, hverdict] at hextract
    exact .inl ⟨rfl, hextract⟩
  | malformed reason place =>
    refine .inr ⟨reason, place, rfl, ?_⟩
    by_cases hstrict : config.strict = true
    · have hverdict : d.verdict config =
          (.error (.malformed (.ofReading reason place d)), none) := by
        simp only [Document.verdict, hending, hstrict, if_true]
      rw [Extractor.outcome, hverdict] at hextract
      exact hextract.trans (if_pos hstrict).symm
    · have hverdict : d.verdict config = (.ok (), some (.ofReading reason place d)) := by
        simp only [Document.verdict, hending, hstrict, Bool.false_eq_true, if_false]
      rw [Extractor.outcome, hverdict] at hextract
      exact hextract.trans (if_neg hstrict).symm
  | unusableEncoding name why => exact absurd hending (hd name why)

theorem exists_shortest {P : Text → Prop} (hgoesOn : ∀ b more, P b → P (b ++ more)) {t : Text}
    (h : P t) : ∃ seen unseen, t = seen ++ unseen ∧ ∀ b, b <+: t → (P b ↔ seen <+: b) := by
  induction t using List.reverseRecOn with
  | nil =>
    refine ⟨[], [], rfl, fun b hb => ?_⟩
    obtain rfl := List.prefix_nil.mp hb
    exact iff_of_true h (List.prefix_refl _)
  | append_singleton init c ih =>
    by_cases hinit : P init
    · obtain ⟨seen, unseen, rfl, hseen⟩ := ih hinit
      refine ⟨seen, unseen ++ [c], List.append_assoc .., fun b hb => ?_⟩
      rcases List.prefix_concat_iff.mp hb with rfl | hb
      · exact iff_of_true h (by rw [List.append_assoc]; exact List.prefix_append _ _)
      · exact hseen b hb
    · refine ⟨init ++ [c], [], (List.append_nil _).symm, fun b hb => ?_⟩
      rcases List.prefix_concat_iff.mp hb with rfl | hb
      · exact iff_of_true h (List.prefix_refl _)
      · refine iff_of_false (fun hP => hinit ?_) fun hlong => ?_
        · obtain ⟨more, rfl⟩ := hb
          exact hgoesOn b more hP
        · have := (hlong.trans hb).length_le
          simp only [List.length_append, List.length_singleton] at this
          omega

/-- In a text in which a signature closes, `seen` is the shortest beginning that delivers such an
end. However the text goes on after it, the same signature is the first to close, and is handed
over as the text of its content in a session of its own, for characters just these; nothing is
reported. Where no signature closes, there is none, and only what makes the document malformed is
reported, or raised by a strict conversion. -/
theorem extract_earliest (units : List TextUnit) :
    let d := Document.text units
    (signatureEnd ∈ d.read.events → ∃ seen unseen earlier attributes content,
      let before := earlier ++ .openElement Part.declaration.tag attributes :: eventsOf content
      d = .ofText (seen ++ unseen) ∧
      (∀ beginning, beginning <+: seen ++ unseen →
        (signatureEnd ∈ (Document.ofText beginning).read.events ↔ seen <+: beginning)) ∧
      signatureEnd ∉ before ∧
      ∀ more : Text, let d' := Document.ofText (seen ++ more)
        (∃ after, d'.read.events = before ++ signatureEnd :: after) ∧
        ∀ config : Config, ∃ t, extract config d' = (.ok (some t), []) ∧
          t = (layoutAll content (.new config.indentWidth .text)).captured ∧
          ∀ pieces : List Text, content = pieces.map .characters → t = pieces.flatten) ∧
    (signatureEnd ∉ d.read.events → ∀ config : Config,
      d.read.ending = .complete ∧ extract config d = (.ok none, []) ∨
      ∃ reason place, d.read.ending = .malformed reason place ∧
        let m := Malformed.ofReading reason place d
        extract config d =
          if config.strict then (.error (.malformed m), []) else (.ok none, [m])) := by
  intro d
  refine ⟨fun hend => ?_, fun hend config => ?_⟩
  · obtain ⟨t, ht⟩ := Document.eq_ofText (List.ne_nil_of_mem hend)
    change d = .ofText t at ht
    rw [ht] at hend
    have hgoesOn (b more : Text) (h : signatureEnd ∈ (Document.ofText b).read.events) :
        signatureEnd ∈ (Document.ofText (b ++ more)).read.events := by
      obtain ⟨before, after, hevents⟩ := List.append_of_mem h
      obtain ⟨after', hmore⟩ := Document.read_goesOn hevents more
      exact hmore ▸ List.mem_append_right before List.mem_cons_self
    obtain ⟨seen, unseen, rfl, hseen⟩ := exists_shortest hgoesOn hend
    have hfirst := (hseen seen (List.prefix_append _ _)).mpr (List.prefix_refl _)
    obtain ⟨before, after, hevents, hbefore⟩ := List.eq_append_cons_of_mem hfirst
    obtain ⟨p, hleads⟩ := (Document.ofText seen).read_leads
    rw [hevents] at hleads
    obtain ⟨around, attributes, content, rfl⟩ := hleads.closing
    refine ⟨seen, unseen, around.events, attributes, content, ht, hseen, hbefore, fun more => ?_⟩
    obtain ⟨after', hmore⟩ := Document.read_goesOn hevents more
    exact ⟨⟨after', hmore⟩, extract_first_end hbefore hmore⟩
  · exact extract_without_end (Document.text_ending_ne units) hend config

private def cutInList : Text :=
  "<F><List-Bullet><Declaration>x<Declaration>a_ </Declaration>".toList

private def cutInListEvents : List Event :=
  [.openElement "F".toList [], .openElement "List-Bullet".toList [],
    .openElement "Declaration".toList [], .characters "x".toList,
    .openElement "Declaration".toList [], .characters "a_ ".toList,
    .closeElement "Declaration".toList]

set_option maxRecDepth 4000 in
private theorem cutInList_read :
    (Document.ofText cutInList).read = ⟨cutInListEvents, .malformed .noElement ⟨1, 60⟩⟩ := by cbv

theorem extract_cutInList :
    signatureEnd ∈ (Document.ofText cutInList).read.events ∧
    extract { strict := true } (.ofText cutInList) = (.ok (some "a_ ".toList), []) ∧
    extract { strict := true } (.ofText (cutInList ++ "</F>".toList)) =
      (.ok (some "a_ ".toList), []) ∧
    extract { strict := true } (.ofText (cutInList ++ "y</Declaration><".toList)) =
      (.ok (some "a_ ".toList), []) := by
  have hend : signatureEnd ∈ (Document.ofText cutInList).read.events := by
    rw [cutInList_read]
    decide
  obtain ⟨seen, unseen, earlier, attributes, content, hunits, -, -, hall⟩ :=
    (extract_earliest (cutInList.map .scalar)).1 hend
  have hcut : cutInList = seen ++ unseen :=
    List.map_injective_iff.mpr (fun _ _ h => TextUnit.scalar.inj h) (Document.text.inj hunits)
  let config : Config := { strict := true }
  have hsame (more : Text) : extract config (.ofText (cutInList ++ more)) =
      (.ok (some (layoutAll content (.new config.indentWidth .text)).captured), []) := by
    obtain ⟨t, ht, rfl, -⟩ := (hall (unseen ++ more)).2 config
    rw [hcut, List.append_assoc, ht]
  have hcomputed : extract config (.ofText cutInList) = (.ok (some "a_ ".toList), []) := by
    unfold extract convert
    rw [cutInList_read]
    rfl
  have hcaptured := hsame []
  rw [List.append_nil, hcomputed] at hcaptured
  exact ⟨hend, hcomputed, (hsame _).trans hcaptured.symm, (hsame _).trans hcaptured.symm⟩

private def signed : Text := "<r><Declaration>a</Declaration></r>".toList

set_option maxRecDepth 4000 in
private theorem signed_read :
    (Document.ofText signed).read =
      ⟨[.openElement "r".toList [], .openElement "Declaration".toList [], .characters "a".toList,
        .closeElement "Declaration".toList, .closeElement "r".toList], .complete⟩ := by cbv

/-- A lone surrogate after the end of a signature keeps it from being seen: such a text is refused
before anything of it is read. -/
theorem extract_loneSurrogate :
    let units := signed.map .scalar ++ [TextUnit.surrogate 0xd800]
    signatureEnd ∈ (Document.ofText signed).read.events ∧
    extract {} (.ofText signed) = (.ok (some "a".toList), []) ∧
    extract {} (.text units) = (.ok none, [.ofReading .notUnicode ⟨1, 0⟩ (.text units)]) := by
  refine ⟨?_, ?_, ?_⟩
  · rw [signed_read]
    decide
  · unfold extract convert
    rw [signed_read]
    rfl
  · have hread : (Document.text (signed.map .scalar ++ [TextUnit.surrogate 0xd800])).read =
        ⟨[], .malformed .notUnicode ⟨1, 0⟩⟩ := by rfl
    unfold extract convert
    rw [hread]
    rfl

end Declaration
end DocMarkdown
