import DocMarkdown.Proofs.Converter.Stretch

/-! Elements that leave no trace. An element that the converter does not know, and one around a line
of code, writes nothing and leaves nothing for its end, so that a document may go without its tags.
The two runs are compared event by event; the pending ends of the one are those of the other without
the ends that come to nothing. A client that keeps its hands off the converter makes no difference
either, and it is offered the unknown elements. -/

namespace DocMarkdown
open Layout Xml

/-- Elements of this name write nothing of their own. -/
def Traceless (name : Text) : Prop :=
  Element.ofTag? name = none ∨ Element.ofTag? name = some .codeLineNumbered

namespace Xml.Event

/-- What is left of events when traceless elements are taken out, each with both of its tags.
`opened` are the elements open before, the innermost first, and whether each of them stays. -/
inductive Erased : List (Text × Bool) → List Event → List Event → Prop
  | nil (opened : List (Text × Bool)) : Erased opened [] []
  | opening {opened : List (Text × Bool)} {name : Text} (attributes : Attributes)
      {es fs : List Event} (h : Erased ((name, true) :: opened) es fs) :
      Erased opened (.openElement name attributes :: es) (.openElement name attributes :: fs)
  | erasedOpening {opened : List (Text × Bool)} {name : Text} (attributes : Attributes)
      {es fs : List Event} (hname : Traceless name) (h : Erased ((name, false) :: opened) es fs) :
      Erased opened (.openElement name attributes :: es) fs
  | closing {opened : List (Text × Bool)} {name : Text} {es fs : List Event}
      (h : Erased opened es fs) :
      Erased ((name, true) :: opened) (.closeElement name :: es) (.closeElement name :: fs)
  | erasedClosing {opened : List (Text × Bool)} {name : Text} {es fs : List Event}
      (h : Erased opened es fs) :
      Erased ((name, false) :: opened) (.closeElement name :: es) fs
  | text {opened : List (Text × Bool)} (t : Text) {es fs : List Event} (h : Erased opened es fs) :
      Erased opened (.characters t :: es) (.characters t :: fs)
  | raw {opened : List (Text × Bool)} {es fs : List Event} (h : Erased opened es fs) :
      Erased opened (.openRaw :: es) (.openRaw :: fs)
  | endRaw {opened : List (Text × Bool)} {es fs : List Event} (h : Erased opened es fs) :
      Erased opened (.closeRaw :: es) (.closeRaw :: fs)

namespace Erased
variable {opened : List (Text × Bool)} {es fs : List Event}

theorem nested (h : Erased opened es fs) : Nested (opened.map (·.1)) es := by
  induction h with
  | nil opened => exact .nil _
  | opening attributes _ ih | erasedOpening attributes _ _ ih => exact .opened attributes ih
  | closing _ ih | erasedClosing _ ih => exact .closed ih
  | text t _ ih => exact .text t ih
  | raw _ ih => exact .raw ih
  | endRaw _ ih => exact .endRaw ih

theorem nested_rest (h : Erased opened es fs) :
    Nested ((opened.filter (·.2)).map (·.1)) fs := by
  induction h with
  | nil opened => exact .nil _
  | opening attributes _ ih => exact .opened attributes ih
  | erasedOpening _ _ _ ih | erasedClosing _ ih => exact ih
  | closing _ ih => exact .closed ih
  | text t _ ih => exact .text t ih
  | raw _ ih => exact .raw ih
  | endRaw _ ih => exact .endRaw ih

end Erased

def offer? : Event → Option (Text × Attributes)
  | .openElement name attributes =>
    match Element.ofTag? name with
    | some _ => none
    | none => some (name, attributes)
  | _ => none

end Xml.Event

namespace Stretch
variable {s : Stretch} {opened : List (Text × Bool)} {ends : List (Option Action)}

inductive EndsOf : List (Text × Bool) → List (Option Action) → List (Option Action) → Prop
  | nil : EndsOf [] [] []
  | kept {opened : List (Text × Bool)} {ends ends' : List (Option Action)} (name : Text)
      (action : Option Action) (h : EndsOf opened ends ends') :
      EndsOf ((name, true) :: opened) (action :: ends) (action :: ends')
  | erased {opened : List (Text × Bool)} {ends ends' : List (Option Action)} (name : Text)
      (h : EndsOf opened ends ends') : EndsOf ((name, false) :: opened) (none :: ends) ends'

theorem open_kept (h : EndsOf opened s.ends ends) (name : Text) (attributes : Attributes) :
    ∃ ends', ({ s with ends } : Stretch).after (.openElement name attributes) =
        { s.after (.openElement name attributes) with ends := ends' } ∧
      EndsOf ((name, true) :: opened) (s.after (.openElement name attributes)).ends ends' := by
  cases he : Element.ofTag? name with
  | none =>
    rw [after_openOther attributes he, after_openOther attributes he]
    exact ⟨none :: ends, rfl, .kept name none h⟩
  | some x =>
    rw [after_openLayout attributes he, after_openLayout attributes he]
    exact ⟨_, rfl, .kept name _ h⟩

theorem open_erased {name : Text} (hname : Traceless name) (attributes : Attributes) :
    s.after (.openElement name attributes) = { s with ends := none :: s.ends } := by
  rcases hname with he | he
  · exact after_openOther attributes he
  · exact after_openLayout attributes he

theorem run_erased {es fs : List Event} (h : Event.Erased opened es fs)
    (hends : EndsOf opened s.ends ends) :
    ∃ ends', ({ s with ends } : Stretch).run fs = { s.run es with ends := ends' } := by
  induction h generalizing s ends with
  | nil => exact ⟨ends, rfl⟩
  | opening attributes _ ih =>
    obtain ⟨ends', hafter, hends'⟩ := open_kept hends _ attributes
    rw [run_cons, run_cons, hafter]
    exact ih hends'
  | @erasedOpening _ name attributes _ _ hname _ ih =>
    -- the element has left an end that comes to nothing
    rw [run_cons, open_erased hname attributes]
    exact ih (s := { s with ends := none :: s.ends }) (.erased name hends)
  | @closing _ name _ _ _ ih =>
    generalize hs : s.ends = all at hends
    cases hends with
    | @kept _ rest rest' _ action hends =>
      have hkept := after_close (s := { s with ends := action :: rest' }) name rfl
      rw [run_cons, run_cons, after_close name hs, hkept]
      exact ih (s := { s with session := s.session.closeWith action, ends := rest }) hends
  | @erasedClosing _ name _ _ _ ih =>
    generalize hs : s.ends = all at hends
    cases hends with
    | @erased _ rest _ _ hends =>
      rw [run_cons, after_close name hs]
      exact ih (s := { s with ends := rest }) hends
  | text t _ ih =>
    cases hraw : s.raw with
    | none =>
      have hrest := ih (s := { s with session := s.session.literal t }) hends
      simpa only [run_cons, after, hraw] using hrest
    | some pieces =>
      have hrest := ih (s := { s with raw := some (t :: pieces) }) hends
      simpa only [run_cons, after, hraw] using hrest
  | raw _ ih => exact ih (s := s.after .openRaw) hends
  | endRaw _ ih => exact ih (s := s.after .closeRaw) hends

end Stretch

section Clients
variable {σ κ α : Type}

def Operation.beside {τ : Type} (p : Operation σ κ α) : Operation (σ × τ) κ α := fun w =>
  match p ⟨w.client.1, w.converter⟩ with
  | .ok a v => .ok a ⟨(v.client, w.client.2), v.converter⟩
  | .error stop v => .error stop ⟨(v.client, w.client.2), v.converter⟩

namespace Client

/-- In every world the client leaves nothing for the end of an element, and the converter as it
is. -/
def Idle (client : Client σ κ) : Prop := ∀ name attributes w,
  ∃ y, client.opening name attributes w = .ok none ⟨y, w.converter⟩

def recorded (client : Client σ κ) : Client (σ × List (Text × Attributes)) κ where
  opening name attributes := do
    modify fun w => { w with client := (w.client.1, w.client.2 ++ [(name, attributes)]) }
    (client.opening name attributes).beside
  closing k := (client.closing k).beside

theorem recorded_opening {client : Client σ κ} {name : Text} {attributes : Attributes} {x y : σ}
    {c : Converter κ} (h : client.opening name attributes ⟨x, c⟩ = .ok none ⟨y, c⟩)
    (offers : List (Text × Attributes)) :
    client.recorded.opening name attributes ⟨(x, offers), c⟩ =
      .ok none ⟨(y, offers ++ [(name, attributes)]), c⟩ := by
  have hnote : (modify fun w : World (σ × List (Text × Attributes)) κ =>
      { w with client := (w.client.1, w.client.2 ++ [(name, attributes)]) } :
        Operation (σ × List (Text × Attributes)) κ PUnit) ⟨(x, offers), c⟩ =
      .ok ⟨⟩ ⟨(x, offers ++ [(name, attributes)]), c⟩ := rfl
  refine (Operation.bind_ok hnote).trans ?_
  simp only [Operation.beside, h]

end Client

namespace Operation
variable {client : Client σ κ} {c : Converter κ} {base : List (Pending κ)} {s : Stretch}

theorem handle_unoffered {client : Option (Client σ κ)} {e : Event} (ho : e.offer? = none)
    (hs : s.Sound) (hclose : e.closes = true → s.ends ≠ []) (x : σ) :
    handle client e ⟨x, s.on c base⟩ = .ok () ⟨x, (s.after e).on c base⟩ := by
  refine handle_passed hs ?_ hclose
  rintro name attributes rfl he
  simp only [Event.offer?, he] at ho
  cases ho

theorem handle_offered {name : Text} {attributes : Attributes} (he : Element.ofTag? name = none)
    (hl : c.listening = true) {x y : σ}
    (ho : client.opening name attributes ⟨x, s.on c base⟩ = .ok none ⟨y, s.on c base⟩) :
    handle (some client) (.openElement name attributes) ⟨x, s.on c base⟩ =
      .ok () ⟨y, (s.after (.openElement name attributes)).on c base⟩ := by
  rw [handle_openOffered he hl ho, Stretch.after_openOther attributes he]
  rfl

theorem feed_idle (hidle : client.Idle) (hl : c.listening = true) {names : List Text}
    {es : List Event} (hes : Event.Nested names es) (hnames : s.ends.length = names.length)
    (hs : s.Sound) (x : σ) (offers : List (Text × Attributes)) :
    ∃ y, feed (some client) es ⟨x, s.on c base⟩ = .ok () ⟨y, (s.run es).on c base⟩ ∧
      feed (some client.recorded) es ⟨(x, offers), s.on c base⟩ =
        .ok () ⟨(y, offers ++ es.filterMap Event.offer?), (s.run es).on c base⟩ := by
  induction es generalizing s names x offers with
  | nil => exact ⟨x, rfl, by rw [List.filterMap_nil, List.append_nil]; rfl⟩
  | cons e rest ih =>
    obtain ⟨hcloses, names', hlength, hrest⟩ := hes.of_cons
    have hnames' : (s.after e).ends.length = names'.length := by
      rw [s.length_ends_after, hnames, hlength]
    cases ho : e.offer? with
    | none =>
      have hclose : e.closes = true → s.ends ≠ [] := fun he =>
        List.ne_nil_of_length_pos (hnames ▸ List.length_pos_of_ne_nil (hcloses he))
      obtain ⟨y, hfeed, hrecorded⟩ := ih hrest hnames' (hs.after e) x offers
      refine ⟨y, ?_, ?_⟩
      · rw [feed_cons (handle_unoffered ho hs hclose x)]
        exact hfeed
      · rw [feed_cons (handle_unoffered ho hs hclose (x, offers)), List.filterMap_cons_none ho]
        exact hrecorded
    | some offer =>
      obtain ⟨name, attributes, rfl, he, rfl⟩ : ∃ name attributes,
          e = .openElement name attributes ∧ Element.ofTag? name = none ∧
            offer = (name, attributes) := by
        cases e with
        | openElement name attributes =>
          cases he : Element.ofTag? name with
          | some x => simp [Event.offer?, he] at ho
          | none => exact ⟨name, attributes, rfl, he, by simpa [Event.offer?, he] using ho.symm⟩
        | _ => cases ho
      obtain ⟨z, hz⟩ := hidle name attributes ⟨x, s.on c base⟩
      obtain ⟨y, hfeed, hrecorded⟩ :=
        ih hrest hnames' (hs.after _) z (offers ++ [(name, attributes)])
      refine ⟨y, ?_, ?_⟩
      · rw [feed_cons (handle_offered he hl hz)]
        exact hfeed
      · rw [feed_cons (handle_offered he hl (Client.recorded_opening hz offers)), hrecorded,
          List.filterMap_cons_some ho, List.append_assoc]
        rfl

/-- Wherever a document is cut off and in whatever state it began, it makes no difference whether
any of its traceless elements had been there: nothing but the pending ends can tell. Nor does an
idle client make one, which is offered all unknown elements in document order. -/
theorem feed_erased {es fs : List Event} (h : Event.Erased [] es fs) (x : σ) (c : Converter κ) :
    ∃ v pending, feed none es ⟨x, c⟩ = .ok () ⟨x, v⟩ ∧
      feed none fs ⟨x, c⟩ = .ok () ⟨x, { v with pending }⟩ ∧
      ∀ client : Client σ κ, client.Idle →
        let heard : Converter κ := { c with listening := true }
        ∃ y, feed (some client) es ⟨x, heard⟩ = .ok () ⟨y, { v with listening := true }⟩ ∧
          feed (some client.recorded) es ⟨(x, []), heard⟩ =
            .ok () ⟨(y, es.filterMap Event.offer?), { v with listening := true }⟩ := by
  let s : Stretch := ⟨c.session, [], c.raw⟩
  have hsound : s.Sound := Stretch.sound_new c.session c.raw
  have hpasses : ∀ es : List Event, ∀ name (attributes : Attributes),
      Event.openElement name attributes ∈ es →
      Passes (none : Option (Client σ κ)) c.listening x name := fun _ _ _ _ _ => .inl rfl
  obtain ⟨ends, hends⟩ := Stretch.run_erased (s := s) h .nil
  have hwhole := feed_stretch (s := s) (c := c) c.pending h.nested rfl hsound (hpasses es)
  have hrest := feed_stretch (s := s) (c := c) c.pending h.nested_rest rfl hsound (hpasses fs)
  have hrun : s.run fs = { s.run es with ends } := hends
  rw [hrun] at hrest
  refine ⟨(s.run es).on c c.pending, _, hwhole, hrest, fun client hidle => ?_⟩
  exact feed_idle (c := { c with listening := true }) hidle rfl h.nested rfl hsound x []

private def cutBehindUnknown : List Event :=
  [.openElement "Function".toList [("file".toList, "f".toList)],
    .openElement "List-Bullet".toList [], .openElement "Item".toList [],
    .openElement "Name".toList [], .openElement "emphasis".toList [], .characters "a".toList,
    .closeElement "emphasis".toList, .closeElement "Name".toList,
    .openElement "zCodeLineNumbered".toList [], .characters "b".toList]

private def onlyRoot : List Event :=
  [.openElement "Function".toList [("file".toList, "f".toList)],
    .openElement "List-Bullet".toList [], .openElement "Item".toList [],
    .openElement "emphasis".toList [], .characters "a".toList, .closeElement "emphasis".toList,
    .characters "b".toList]

private def counting : Client Nat Empty where
  opening _ _ := do
    modify fun w => { w with client := w.client + 1 }
    return none
  closing k := nomatch k

theorem feed_onlyRoot :
    let c : Converter Empty := .new {}
    Event.Erased [] cutBehindUnknown onlyRoot ∧ counting.Idle ∧
    ∃ (v : Converter Empty) (pending : List (Pending Empty)) (y : Nat),
      feed none cutBehindUnknown ⟨0, c⟩ = .ok () ⟨0, v⟩ ∧
      feed none onlyRoot ⟨0, c⟩ = .ok () ⟨0, { v with pending }⟩ ∧
      v.session.text = "\n- *a*b".toList ∧
      feed (some counting.recorded) cutBehindUnknown ⟨(0, []), { c with listening := true }⟩ =
        .ok () ⟨(y, [("Function".toList, [("file".toList, "f".toList)]), ("Name".toList, [])]),
          { v with listening := true }⟩ := by
  intro c
  have herased : Event.Erased [] cutBehindUnknown onlyRoot :=
    .opening _ (.opening _ (.opening _ (.erasedOpening _ (.inl rfl) (.opening _ (.text _
      (.closing (.erasedClosing (.erasedOpening _ (.inr rfl) (.text _ (.nil _))))))))))
  have hidle : counting.Idle := fun _ _ w => ⟨w.client + 1, rfl⟩
  obtain ⟨v, pending, hwhole, hrest, hclient⟩ := feed_erased herased 0 c
  obtain ⟨y, -, hrecorded⟩ := hclient counting hidle
  refine ⟨herased, hidle, v, pending, y, hwhole, hrest, ?_, hrecorded⟩
  cases hwhole
  rfl

end Operation
end Clients
end DocMarkdown
