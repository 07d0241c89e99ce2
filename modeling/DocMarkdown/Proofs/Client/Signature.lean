import DocMarkdown.Proofs.Client.Stranding
import DocMarkdown.Proofs.Converter.Conversion

/-! The signature of a declaration, by the short way and in the record. What the extractor finds is
the text of the signature that closes first, as it stands in a session of its own; neither the
converter around it nor what follows it matters. The builder captures the same text, wherever the
signature lies, if there is one only and no other part lies in it. -/

namespace DocMarkdown
open Layout Xml Operation

namespace Xml.Event

def part? : Event → Option Part
  | .openElement name _ => Part.ofTag? name
  | _ => none

/-- The events up to the end of the element around them, with `depth` elements open in it, or up
to where the delivery breaks off. -/
def within : Nat → List Event → List Event
  | _, [] => []
  | depth, e :: rest => if e.closes && depth == 0 then [] else e :: within (e.depthAfter depth) rest

theorem within_next {e : Event} {depth : Nat} (h : e.closes = true → depth ≠ 0)
    (rest : List Event) : within depth (e :: rest) = e :: within (e.depthAfter depth) rest := by
  have hends : ¬ (e.closes && depth == 0) = true := by
    simp only [Bool.and_eq_true, beq_iff_eq, not_and]
    exact h
  rw [within, if_neg hends]

theorem open_of_part {e : Event} {part : Part} (h : e.part? = some part) :
    ∃ name attributes, e = .openElement name attributes ∧ Part.ofTag? name = some part := by
  cases e with
  | openElement name attributes => exact ⟨name, attributes, rfl, h⟩
  | _ => cases h

/-- There is at most one signature, and no part of a declaration in it. -/
structure LoneSignature (es : List Event) : Prop where
  once : es.countP (·.part? = some .declaration) ≤ 1
  plain : ∀ before e after, es = before ++ e :: after → e.part? = some .declaration →
    ∀ e' ∈ within 0 after, e'.part? = none

namespace LoneSignature
variable {e : Event} {rest : List Event}

theorem tail (h : LoneSignature (e :: rest)) : LoneSignature rest where
  once := (List.Sublist.countP_le (List.sublist_cons_self e rest)).trans h.once
  plain before e' after hes he := h.plain (e :: before) e' after (congrArg (e :: ·) hes) he

theorem after (h : LoneSignature (e :: rest)) (he : e.part? = some .declaration) :
    ∀ e' ∈ rest, e'.part? ≠ some .declaration := by
  have honce := h.once
  simp only [List.countP_cons, he, decide_true, if_true] at honce
  have hnone : rest.countP (·.part? = some .declaration) = 0 := by omega
  exact fun e' hmem hpart => List.countP_eq_zero.mp hnone e' hmem (decide_eq_true hpart)

theorem inside (h : LoneSignature (e :: rest)) (he : e.part? = some .declaration) :
    ∀ e' ∈ within 0 rest, e'.part? = none := h.plain [] e rest rfl he

theorem nil : LoneSignature [] where
  once := Nat.zero_le 1
  plain before e after h := by simp at h

theorem cons_other (h : LoneSignature rest) (he : e.part? ≠ some .declaration) :
    LoneSignature (e :: rest) where
  once := by
    simp only [List.countP_cons, he, decide_false, Bool.false_eq_true, if_false]
    exact h.once
  plain before e' after hes he' := by
    cases before with
    | nil =>
      cases hes
      exact absurd he' he
    | cons b before =>
      cases hes
      exact h.plain before e' after rfl he'

theorem cons_signature (hafter : ∀ e' ∈ rest, e'.part? ≠ some .declaration)
    (hinside : ∀ e' ∈ within 0 rest, e'.part? = none) : LoneSignature (e :: rest) where
  once := by
    have hnone : rest.countP (·.part? = some .declaration) = 0 :=
      List.countP_eq_zero.mpr fun e' hmem => by simpa using hafter e' hmem
    rw [List.countP_cons, hnone]
    split <;> omega
  plain before e' after hes he' := by
    cases before with
    | nil =>
      cases hes
      exact hinside
    | cons b before =>
      cases hes
      exact absurd he' (hafter e' (List.mem_append_right before List.mem_cons_self))

instance decidable : (es : List Event) → Decidable (LoneSignature es)
  | [] => .isTrue nil
  | e :: rest =>
    if he : e.part? = some .declaration then
      decidable_of_iff ((∀ e' ∈ rest, e'.part? ≠ some .declaration) ∧
          ∀ e' ∈ within 0 rest, e'.part? = none)
        ⟨fun h => cons_signature h.1 h.2, fun h => ⟨h.after he, h.inside he⟩⟩
    else
      have := decidable rest
      decidable_of_iff (LoneSignature rest) ⟨fun h => cons_other h he, tail⟩

end LoneSignature
end Xml.Event

theorem element_of_ofTag?_part {name : Text} {part : Part} (h : Part.ofTag? name = some part) :
    Element.ofTag? name = none := by
  cases he : Element.ofTag? name with
  | none => rfl
  | some e =>
    rw [ofTag?_part_of_element he] at h
    cases h

namespace Extractor

/-- The text of the signature that closes first. `inside` tells whether one is open, and then the
stretch is that of the innermost; outside, nothing is made of it but its raw section. -/
def find (width : Nat) : Bool → Stretch → List Event → Option Text
  | _, _, [] => none
  | inside, s, e :: rest =>
    if e.part? = some .declaration then
      find width true { session := .new width .text, raw := s.raw } rest
    else if inside && e.closes && s.ends.isEmpty then some s.session.captured
    else find width inside (s.after e) rest

theorem find_opened (width : Nat) (inside : Bool) (s : Stretch) {name : Text}
    (hname : Part.ofTag? name = some .declaration) (attributes : Attributes) (rest : List Event) :
    find width inside s (.openElement name attributes :: rest) =
      find width true { session := .new width .text, raw := s.raw } rest := by
  simp only [find, Event.part?, hname, if_true]

theorem find_closed (width : Nat) {s : Stretch} (hs : s.ends = []) (name : Text)
    (rest : List Event) :
    find width true s (.closeElement name :: rest) = some s.session.captured := by
  simp [find, Event.part?, Event.closes, hs]

theorem find_next (width : Nat) (inside : Bool) (s : Stretch) (e : Event)
    (he : e.part? ≠ some .declaration)
    (hclose : e.closes = true → inside = true → s.ends ≠ []) (rest : List Event) :
    find width inside s (e :: rest) = find width inside (s.after e) rest := by
  have hends : ¬ (inside && e.closes && s.ends.isEmpty) = true := by
    simp only [Bool.and_eq_true, List.isEmpty_iff, not_and]
    exact fun h => hclose h.2 h.1
  rw [find, if_neg he, if_neg hends]

section Run
variable {c : Converter Unit} {x : Extractor} {s : Stretch}

theorem passes_of_ne {name : Text} (hname : Part.ofTag? name ≠ some .declaration)
    (listening : Bool) (x : Extractor) : Passes (some client) listening x name := by
  intro _
  refine .inr (.inr ⟨client, rfl, fun attributes d => ?_⟩)
  simp only [client, opening, if_neg hname]
  rfl

theorem handle_openSignature {base : List (Pending Unit)} {name : Text}
    (hname : Part.ofTag? name = some .declaration) (hl : c.listening = true)
    (attributes : Attributes) :
    handle (some client) (.openElement name attributes) ⟨x, s.on c base⟩ =
      .ok () ⟨x, Stretch.on
        { c with saved := if c.capturing then s.session :: c.saved else c.saved, capturing := true }
        (.client () :: (s.ends.map .ofAction ++ base))
        { session := .new c.config.indentWidth .text, raw := s.raw }⟩ := by
  have he : Element.ofTag? name = none := element_of_ofTag?_part hname
  have ho : client.opening name attributes ⟨x, s.on c base⟩ =
      .ok (some ()) ⟨x, (s.on c base).beginCapture .text⟩ := by
    simp only [client, opening, if_pos hname]
    rfl
  rw [handle_openOffered he hl ho]
  rfl

theorem closing_run {w : World Extractor Unit} (hr : w.converter.running = true) :
    closing () w = .error .aborted
      ⟨⟨some w.converter.session.captured⟩, w.converter.endCapture.2⟩ := by
  have hrunning : w.converter.endCapture.2.running = true := by
    cases hs : w.converter.saved <;> simpa only [Converter.endCapture, hs] using hr
  simp only [closing]
  rw [bind_ok (endCapture_run w), bind_ok get_run]
  change (if w.converter.endCapture.2.running = true then (throw .aborted : Operation _ _ Unit)
    else pure ()) _ = _
  rw [if_pos hrunning]
  rfl

theorem handle_closeSignature {base : List (Pending Unit)} (tag : Text)
    (hr : c.running = true) (hends : s.ends = []) :
    ∃ w', handle (some client) (.closeElement tag) ⟨x, s.on c (.client () :: base)⟩ =
        .error .aborted w' ∧ w'.client = ⟨some s.session.captured⟩ ∧
      w'.converter.reports = c.reports := by
  have hpending : (s.on c (.client () :: base)).pending = .client () :: base := by
    simp [Stretch.on, hends]
  rw [handle_close tag hpending]
  exact ⟨_, closing_run hr, rfl, Converter.endCapture_reports _⟩

theorem feed_find {names : List Text} {es : List Event} (hes : Event.Nested names es)
    (hl : c.listening = true) (hr : c.running = true) (hs : s.Sound) {inside : Bool}
    {base : List (Pending Unit)} (hbase : if inside then ∃ rest, base = .client () :: rest
      else base = []) (hnames : s.ends.length + base.length = names.length) :
    (∃ t w', find c.config.indentWidth inside s es = some t ∧
      feed (some client) es ⟨x, s.on c base⟩ = .error .aborted w' ∧ w'.client = ⟨some t⟩ ∧
      w'.converter.reports = c.reports) ∨
    ∃ w', find c.config.indentWidth inside s es = none ∧
      feed (some client) es ⟨x, s.on c base⟩ = .ok () w' ∧ w'.client = x ∧
      w'.converter.config = c.config ∧ w'.converter.reports = c.reports := by
  induction es generalizing c s inside base names with
  | nil => exact .inr ⟨_, rfl, rfl, rfl, rfl, rfl⟩
  | cons e rest ih =>
    obtain ⟨hcloses, names', hlength, hrest⟩ := hes.of_cons
    by_cases he : e.part? = some .declaration
    · obtain ⟨name, attributes, rfl, hname⟩ := Event.open_of_part he
      rw [feed_cons (handle_openSignature hname hl attributes), find_opened _ _ _ hname]
      refine ih (c := { c with
        saved := if c.capturing then s.session :: c.saved else c.saved, capturing := true })
        hrest hl hr (Stretch.sound_new _ _) ⟨_, rfl⟩ ?_
      simp [hlength, Event.depthAfter, ← hnames]
    · by_cases hend : e.closes = true ∧ s.ends = []
      · obtain ⟨tag, rfl⟩ := Event.close_of_closes hend.1
        cases inside with
        | false =>
          rw [if_neg Bool.false_ne_true] at hbase
          rw [hend.2, hbase] at hnames
          exact absurd (List.length_eq_zero_iff.mp hnames.symm) (hcloses rfl)
        | true =>
          obtain ⟨outer, rfl⟩ := hbase
          obtain ⟨w', hw, hclient, hreports⟩ := handle_closeSignature (x := x) tag hr hend.2
          exact .inl ⟨_, w', find_closed _ hend.2 tag rest, feed_cons_error hw, hclient, hreports⟩
      · have hne : e.closes = true → s.ends ≠ [] := not_and.mp hend
        have hopen : ∀ name attributes, e = .openElement name attributes →
            Passes (some client) c.listening x name := by
          rintro name attributes rfl
          exact passes_of_ne he c.listening x
        rw [feed_cons (handle_passed hs hopen hne), find_next _ inside s e he fun h _ => hne h]
        refine ih hrest hl hr (hs.after e) hbase ?_
        rw [s.length_ends_add hnames hne, hlength]

end Run
theorem find_outside (width : Nat) (es : List Event) {s s' : Stretch} (h : s.raw = s'.raw) :
    find width false s es = find width false s' es := by
  induction es generalizing s s' with
  | nil => rfl
  | cons e rest ih =>
    by_cases he : e.part? = some .declaration
    · simp only [find, he, if_true, h]
    · rw [find_next width false s e he nofun, find_next width false s' e he nofun]
      exact ih (by rw [s.raw_after, s'.raw_after, h])

def outcome (config : Config) (d : Document) :
    Option Text → Except Stop (Option Text) × List Malformed
  | some t => (.ok (some t), [])
  | none => ((d.verdict config).1.map fun _ => none, (d.verdict config).2.toList)

theorem seen_extract (c : Converter Unit) (d : Document) {found : Option Text}
    (hfound : find c.config.indentWidth false { session := c.session } d.read.events = found) :
    seen (fun _ x => x.signature) (convert (some client) d ⟨{}, c⟩) =
      ((outcome c.config d found).1, c.reports.reverse ++ (outcome c.config d found).2) := by
  have hrun := feed_find (c := c.start true) (x := {}) (s := { session := c.session })
    d.read_nested rfl rfl (Stretch.sound_new c.session none) (if_neg Bool.false_ne_true |>.mpr rfl)
    rfl
  rcases hrun with ⟨t, v, hfind, hfeed, hclient, hreports⟩ |
    ⟨v, hfind, hfeed, hclient, hconfig, hreports⟩
  · obtain rfl : some t = found := hfind.symm.trans hfound
    rw [seen_aborted _ hfeed, hclient, hreports, outcome, List.append_nil]
    rfl
  · obtain rfl : none = found := hfind.symm.trans hfound
    rw [seen_delivered _ hfeed, hclient, hreports, hconfig]
    rfl

end Extractor

namespace Builder
variable {w w' : World Builder Part} {s : Stretch}

structure Outside (w : World Builder Part) : Prop where
  listening : w.converter.listening = true
  pending : ∀ p ∈ w.converter.pending, p ≠ .client .declaration

theorem root_declaration (b : Builder) (name : Text) (attributes : Attributes) :
    (b.root name attributes).record.declaration = b.record.declaration := by
  unfold root
  split <;> rfl

theorem store_declaration (b : Builder) {part : Part} (hpart : part ≠ .declaration) (t : Text) :
    (b.store part t).record.declaration = b.record.declaration := by
  cases part with
  | declaration => exact absurd rfl hpart
  | name =>
    simp only [store, setName]
    split <;> rfl
  | _ => rfl

theorem endParameter_declaration (b : Builder) :
    b.endParameter.record.declaration = b.record.declaration := by
  unfold endParameter
  split <;> rfl

theorem opening_declaration (name : Text) (attributes : Attributes) (w : World Builder Part) :
    (habit.opening name attributes w).2.record.declaration = w.client.record.declaration := by
  have hroot := w.client.root_declaration name attributes
  simp only [habit]
  split <;> exact hroot

theorem closing_declaration {part : Part} (hpart : part ≠ .declaration) (t : Option Text)
    (w : World Builder Part) :
    (habit.closing part t w).record.declaration = w.client.record.declaration := by
  cases t with
  | some t => exact w.client.store_declaration hpart t
  | none => exact w.client.endParameter_declaration

theorem Outside.handle {e : Event} (h : Outside w) (he : e.part? ≠ some .declaration)
    (hw : handle (some client) e w = .ok () w') :
    Outside w' ∧ w'.client.record.declaration = w.client.record.declaration := by
  have hkeeps := (handle_keeps client_follows hw).1
  have hlistening : w'.converter.listening = true :=
    (congrArg Circumstances.listening hkeeps).trans h.listening
  cases e with
  | openElement name attributes =>
    cases hname : Element.ofTag? name with
    | some e =>
      rw [handle_openLayout attributes hname] at hw
      cases hw
      refine ⟨⟨hlistening, ?_⟩, rfl⟩
      exact List.forall_mem_cons.mpr ⟨Pending.ofAction_ne_client _ _, h.pending⟩
    | none =>
      rw [handle_openOffered hname h.listening (client_follows.opening name attributes w)] at hw
      cases hw
      refine ⟨⟨hlistening, List.forall_mem_cons.mpr ⟨?_, ?_⟩⟩,
        opening_declaration name attributes w⟩
      · cases hk : (habit.opening name attributes w).1 with
        | none => simp [left]
        | some k =>
          rintro ⟨⟩
          exact he (part_of_opening hk)
      · rw [(w.converter.enter_keeps _).2.2]
        exact h.pending
  | closeElement name =>
    cases hp : w.converter.pending with
    | nil =>
      rw [handle_closeEmpty name hp] at hw
      cases hw
    | cons p pending =>
      have hall := h.pending
      rw [hp] at hall
      obtain ⟨hne, hrest⟩ := List.forall_mem_cons.mp hall
      rw [handle_close name hp] at hw
      obtain ⟨-, -, hpending, hclient⟩ := close_keeps client_follows hw
      refine ⟨⟨hlistening, hpending ▸ hrest⟩, ?_⟩
      rcases hclient with hclient | ⟨k, t, rfl, hclient⟩
      · rw [hclient]
      · rw [hclient]
        exact closing_declaration (fun hk => hne (congrArg Pending.client hk)) t _
  | characters t =>
    have hpending : (w.converter.characters t).pending = w.converter.pending := by
      unfold Converter.characters
      split <;> rfl
    cases hw
    exact ⟨⟨hlistening, hpending.symm ▸ h.pending⟩, rfl⟩
  | openRaw =>
    cases hw
    exact ⟨⟨hlistening, h.pending⟩, rfl⟩
  | closeRaw =>
    cases hw
    exact ⟨⟨hlistening, h.pending⟩, rfl⟩

theorem Outside.feed {es : List Event} (h : Outside w)
    (hes : ∀ e ∈ es, e.part? ≠ some .declaration) (hw : feed (some client) es w = .ok () w') :
    w'.client.record.declaration = w.client.record.declaration := by
  induction es generalizing w with
  | nil =>
    cases hw
    rfl
  | cons e rest ih =>
    obtain ⟨u, hu, hrest⟩ := feed_cons_ok hw
    obtain ⟨he, hes⟩ := List.forall_mem_cons.mp hes
    obtain ⟨houtside, hdeclaration⟩ := h.handle he hu
    rw [ih houtside hes hrest, hdeclaration]

theorem close_signature {c : Converter Part} {base : List (Pending Part)} {x : Builder}
    (tag : Text) (hends : s.ends = []) :
    ∃ v, Operation.handle (some client) (.closeElement tag)
        ⟨x, s.on c (.client .declaration :: base)⟩ = .ok () v ∧
      v.client.record.declaration = some (Text.trim s.session.captured) ∧
      v.converter.pending = base ∧ v.converter.listening = c.listening := by
  have hpending :
      (s.on c (.client .declaration :: base)).pending = .client .declaration :: base := by
    simp [Stretch.on, hends]
  rw [handle_close tag hpending]
  let d : Converter Part := { s.on c (.client .declaration :: base) with pending := base }
  obtain ⟨hcircumstances, -, hbase⟩ := d.leave_keeps (some .text)
  refine ⟨_, client_follows.closing .declaration ⟨x, d⟩, ?_, hbase, ?_⟩
  · exact congrArg (fun t => some (Text.trim t)) d.endCapture_fst
  · exact congrArg Circumstances.listening hcircumstances

theorem feed_inside (width : Nat) {es : List Event} {c : Converter Part}
    {base : List (Pending Part)} {x : Builder}
    (hl : c.listening = true) (hx : x.rooted = true) (hs : s.Sound)
    (hbase : ∀ p ∈ base, p ≠ .client .declaration)
    (honly : ∀ e ∈ es, e.part? ≠ some .declaration)
    (hplain : ∀ e ∈ Event.within s.ends.length es, e.part? = none)
    (hw : Operation.feed (some client) es ⟨x, s.on c (.client .declaration :: base)⟩ = .ok () w') :
    w'.client.record.declaration =
      ((Extractor.find width true s es).map Text.trim).or x.record.declaration := by
  induction es generalizing s with
  | nil =>
    cases hw
    rfl
  | cons e rest ih =>
    obtain ⟨he, hafter⟩ := List.forall_mem_cons.mp honly
    by_cases hend : e.closes = true ∧ s.ends = []
    · obtain ⟨tag, rfl⟩ := Event.close_of_closes hend.1
      obtain ⟨v, hv, hdeclaration, hpending, hlistening⟩ :=
        close_signature (c := c) (x := x) tag hend.2
      have houtside : Outside v := ⟨hlistening.trans hl, hpending.symm ▸ hbase⟩
      rw [feed_cons hv] at hw
      rw [houtside.feed hafter hw, hdeclaration, Extractor.find_closed _ hend.2]
      rfl
    · have hne : e.closes = true → s.ends ≠ [] := not_and.mp hend
      have hpos : e.closes = true → s.ends.length ≠ 0 := fun h =>
        (List.length_pos_of_ne_nil (hne h)).ne'
      rw [Event.within_next hpos] at hplain
      obtain ⟨hname, hplain⟩ := List.forall_mem_cons.mp hplain
      have hopen : ∀ name attributes, e = .openElement name attributes →
          Passes (some client) c.listening x name := by
        rintro name attributes rfl
        exact passes_of_plain hx hname c.listening
      rw [feed_cons (handle_passed hs hopen hne)] at hw
      rw [Extractor.find_next _ _ _ _ he fun h _ => hne h]
      exact ih (hs.after e) hafter (s.length_ends_after e ▸ hplain) hw

theorem rooted_root (b : Builder) (name : Text) (attributes : Attributes) :
    (b.root name attributes).rooted = true := by
  cases hb : b.rooted <;> simp [root, hb]

theorem open_signature {name : Text} (hname : Part.ofTag? name = some .declaration)
    (attributes : Attributes) (hl : w.converter.listening = true) :
    Operation.handle (some client) (.openElement name attributes) w =
      .ok () ⟨w.client.root name attributes,
        (w.converter.beginCapture .text).push (.client .declaration)⟩ := by
  have ho := client_follows.opening name attributes w
  simp only [habit, hname, captureMode, Option.map_some] at ho
  rw [handle_openOffered (element_of_ofTag?_part hname) hl ho]
  rfl

theorem feed_signature {es : List Event} (h : Outside w) (hraw : w.converter.raw = s.raw)
    (hlone : Event.LoneSignature es) (hw : Operation.feed (some client) es w = .ok () w') :
    w'.client.record.declaration =
      ((Extractor.find w.converter.config.indentWidth false s es).map Text.trim).or
        w.client.record.declaration := by
  induction es generalizing w s with
  | nil =>
    cases hw
    rfl
  | cons e rest ih =>
    by_cases he : e.part? = some .declaration
    · obtain ⟨name, attributes, rfl, hname⟩ := Event.open_of_part he
      let c := (w.converter.beginCapture .text).push (.client .declaration)
      let x := w.client.root name attributes
      have hstretch : c = Stretch.on c (.client .declaration :: w.converter.pending)
          { session := .new w.converter.config.indentWidth .text, raw := s.raw } := by
        rw [← hraw]
        rfl
      have hopened : Operation.feed (some client) rest ⟨x, c⟩ = .ok () w' := by
        rw [← hw, feed_cons (open_signature hname attributes h.listening)]
      rw [hstretch] at hopened
      rw [feed_inside (c := c) w.converter.config.indentWidth h.listening
        (w.client.rooted_root name attributes) (Stretch.sound_new _ _) h.pending
        (hlone.after he) (hlone.inside he) hopened, Extractor.find_opened _ _ _ hname]
      exact congrArg _ (w.client.root_declaration name attributes)
    · obtain ⟨u, hu, hrest⟩ := feed_cons_ok hw
      obtain ⟨houtside, hdeclaration⟩ := h.handle he hu
      obtain ⟨hcircumstances, hrawu⟩ := handle_keeps client_follows hu
      have hconfig : u.converter.config = w.converter.config :=
        congrArg Circumstances.config hcircumstances
      have hrawu : u.converter.raw = (s.after e).raw := by rw [hrawu, hraw, s.raw_after]
      rw [Extractor.find_next _ false s e he fun _ => nofun,
        ih houtside hrawu hlone.tail hrest, hconfig, hdeclaration]

end Builder

namespace Declaration

theorem build_eq_seen (config : Config) (d : Document) :
    build config d = seen (fun _ x => x.record)
      (convert (some Builder.client) d ⟨{}, .new config⟩) := by
  unfold build
  cases convert (some Builder.client) d ⟨{}, .new config⟩ <;> rfl

theorem extract_eq_seen (config : Config) (d : Document) :
    extract config d = seen (fun _ x => x.signature)
      (convert (some Extractor.client) d ⟨{}, .new config⟩) := by
  unfold extract
  cases convert (some Extractor.client) d ⟨{}, .new config⟩ <;> rfl

theorem feed_of_build {config : Config} {d : Document} {r : Declaration}
    (hr : (build config d).1 = .ok r) :
    ∃ v, feed (some Builder.client) d.read.events ⟨{}, (Converter.new config).start true⟩ =
        .ok () v ∧
      (d.verdict config).1 = .ok () ∧ v.client.record = r := by
  let w : World Builder Part := ⟨{}, .new config⟩
  have emptyPop_ne : Stop.emptyPop ≠ .aborted := by decide
  rw [build_eq_seen] at hr
  rcases Outline.Reached.run d.read_nested rfl (.new config) rfl with ⟨-, v, hv⟩ | ⟨-, v, -, hv, -⟩
  · have hc := convert_stopped (w := w) emptyPop_ne hv
    rw [hc] at hr
    cases hr
  · have hconfig : v.converter.config = config :=
      congrArg Circumstances.config (feed_keeps Builder.client_follows hv)
    have hseen := seen_delivered (w := w) (fun _ x => x.record) hv
    rw [hseen, hconfig] at hr
    refine ⟨v, hv, ?_⟩
    cases hverdict : (d.verdict config).1 with
    | error stop =>
      rw [hverdict] at hr
      cases hr
    | ok _ =>
      rw [hverdict] at hr
      cases hr
      exact ⟨rfl, rfl⟩

/-- The short way to a signature agrees with the record, in which the signature is trimmed. -/
theorem build_declaration_eq_extract {config : Config} {d : Document} {r : Declaration}
    (hlone : Event.LoneSignature d.read.events) (hr : (build config d).1 = .ok r) :
    ∃ s, (extract config d).1 = .ok s ∧ r.declaration = s.map Text.trim := by
  obtain ⟨v, hv, hverdict, rfl⟩ := feed_of_build hr
  have houtside : Builder.Outside ⟨{}, (Converter.new config).start true⟩ := ⟨rfl, nofun⟩
  have hrecord := Builder.feed_signature (s := { session := .new config.indentWidth .markdown })
    houtside rfl hlone hv
  change _ = (Option.map Text.trim (Extractor.find config.indentWidth false _ _)).or none at hrecord
  rw [extract_eq_seen]
  cases hfind : Extractor.find config.indentWidth false
      { session := .new config.indentWidth .markdown } d.read.events with
  | some t =>
    rw [hfind] at hrecord
    refine ⟨some t, ?_, hrecord⟩
    rw [Extractor.seen_extract (.new config) d hfind]
    rfl
  | none =>
    rw [hfind] at hrecord
    refine ⟨none, ?_, hrecord⟩
    rw [Extractor.seen_extract (.new config) d hfind]
    simp only [Extractor.outcome, Converter.new, hverdict]
    rfl

private def listedSignature : Document :=
  .ofString ("<F><ResultDiscussion><List-Bullet><Item><Declaration> a<Para>b</Para>" ++
    "</Declaration></Item></List-Bullet></ResultDiscussion><p></F>")

private def listedSignatureEvents : List Event :=
  [.openElement "F".toList [], .openElement "ResultDiscussion".toList [],
    .openElement "List-Bullet".toList [], .openElement "Item".toList [],
    .openElement "Declaration".toList [], .characters " a".toList, .openElement "Para".toList [],
    .characters "b".toList, .closeElement "Para".toList, .closeElement "Declaration".toList,
    .closeElement "Item".toList, .closeElement "List-Bullet".toList,
    .closeElement "ResultDiscussion".toList, .openElement "p".toList []]

set_option maxRecDepth 6000 in
private theorem listedSignature_read :
    listedSignature.read = ⟨listedSignatureEvents, .malformed .mismatchedTag ⟨1, 128⟩⟩ := by cbv

private def listedSignatureRecord : Declaration where
  kind := some "F".toList
  declaration := some "a\nb".toList
  resultDiscussion := some "-  a\nb".toList

theorem extract_listedSignature :
    Event.LoneSignature listedSignature.read.events ∧
    (build {} listedSignature).1 = .ok listedSignatureRecord ∧
    ∃ s, (extract {} listedSignature).1 = .ok s ∧ some "a\nb".toList = s.map Text.trim := by
  have hlone : Event.LoneSignature listedSignature.read.events := by
    rw [listedSignature_read]
    decide
  have hbuild : (build {} listedSignature).1 = .ok listedSignatureRecord := by
    unfold build convert
    rw [listedSignature_read]
    rfl
  exact ⟨hlone, hbuild, build_declaration_eq_extract hlone hbuild⟩

end Declaration
end DocMarkdown
