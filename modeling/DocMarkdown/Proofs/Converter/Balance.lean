import DocMarkdown.Proofs.Converter.Nesting
import DocMarkdown.Proofs.Xml.Delivery

/-! Conversions stay balanced. After every event of a document, whether it is refused later or
not, there is one pending end for every open element and one saved session for every capture,
and every session is indented for the lists that it has open. Therefore no end is ever without
its beginning, and a conversion stops early only for what it was given. -/

namespace DocMarkdown
open Layout Xml Operation

def Xml.Event.openNames (names : List Text) : List Event → List Text
  | [] => names
  | .openElement name _ :: rest => openNames (name :: names) rest
  | .closeElement _ :: rest => openNames names.tail rest
  | _ :: rest => openNames names rest

variable {σ κ : Type}

def Pending.captures (h : Option (Habit σ κ)) : Pending κ → Bool
  | .client k => (h.bind (·.mode k)).isSome
  | _ => false

theorem Leaves.captures {h : Option (Habit σ κ)} {o : Opened} {p : Pending κ}
    (hp : Leaves h o p) : p.captures h = o.2 := by
  cases hp with
  | @layout _ _ a _ _ => cases a <;> rfl
  | unheard => rfl
  | @offered _ habit _ hh attributes w =>
    subst hh
    cases hk : (habit.opening _ attributes w).1 <;>
      simp [Habit.captureAt, hk, left, Pending.captures]

theorem Leaves.map_captures {h : Option (Habit σ κ)} {opened : List Opened}
    {pending : List (Pending κ)} (hp : List.Forall₂ (Leaves h) opened pending) :
    pending.map (Pending.captures h) = opened.map (·.2) := by
  induction hp with
  | nil => rfl
  | cons ho _ ih => rw [List.map_cons, List.map_cons, ho.captures, ih]

/-- While the elements `opened` are open there is one pending end for each of them, and one
session saved above `base` for each that is captured. In each session just those lists are open
that were opened in it, and it is indented for them. -/
structure Converter.Balances (h : Option (Habit σ κ)) (base : List Session)
    (opened : List Opened) (c : Converter κ) : Prop where
  pending : c.pending.map (Pending.captures h) = opened.map (·.2)
  sessions : ∃ inner, c.saved = inner ++ base ∧ inner.length = opened.countP (·.2) ∧
    List.Forall₂ Session.Balanced (c.session :: inner) (groups opened)

theorem Layout.Session.openElement_item_output (s : Session) (attributes : Attributes) :
    (s.openElement .item attributes).1.output =
      marker s.context.lists.head? :: s.indent.decrement.margin.1 :: s.output := by
  simp only [openElement, writeMargin, write, List.append_nil]

namespace Tracks
variable {client : Option (Client σ κ)} {h : Option (Habit σ κ)}
  {origin : Converter κ} {live lost : List Opened} {w : World σ κ} {c : Converter κ}

theorem characters (T : Tracks client h origin live lost c) (t : Text) :
    Tracks client h origin live lost (c.characters t) := by
  unfold Converter.characters
  split
  · exact ⟨T.config, T.attends, T.pending, T.sessions, T.capturing, T.uncaptured, T.bare⟩
  · exact T.update fun kinds hs => hs.literal t

theorem openRaw (T : Tracks client h origin live lost c) :
    Tracks client h origin live lost c.openRaw :=
  ⟨T.config, T.attends, T.pending, T.sessions, T.capturing, T.uncaptured, T.bare⟩

theorem closeRaw (T : Tracks client h origin live lost c) :
    Tracks client h origin live lost c.closeRaw := by
  have hs := T.update (s := c.session.rawBlock (c.raw.getD []).reverse.flatten)
    fun kinds hs => hs.rawBlock _
  exact ⟨hs.config, hs.attends, hs.pending, hs.sessions, hs.capturing, hs.uncaptured, hs.bare⟩

theorem run {names : List Text} {es : List Event} (hes : Event.Nested names es)
    (horigin : origin.capturing = true) (T : Tracks client h origin live [] w.converter)
    (hlive : live.map (·.1) = names) :
    ∃ w' live', feed client es w = .ok () w' ∧ live'.map (·.1) = Event.openNames names es ∧
      Tracks client h origin live' [] w'.converter := by
  induction hes generalizing live w with
  | nil names => exact ⟨w, live, rfl, hlive, T⟩
  | @opened names name attributes rest _ ih =>
    obtain ⟨v, hv, -, hT⟩ := T.opens name attributes
    have hcap : w.converter.capturing = true := by rw [T.capturing, horigin, Bool.true_or]
    rw [hcap, Bool.not_true, Bool.and_false, if_neg Bool.false_ne_true] at hT
    rw [feed_cons hv]
    exact ih hT (congrArg (name :: ·) hlive)
  | @closed names name rest _ ih =>
    cases live with
    | nil => cases hlive
    | cons o live =>
      obtain ⟨v, hv, -, hT⟩ := T.closes name
      rw [feed_cons hv]
      exact ih hT (List.cons.inj hlive).2
  | text t _ ih =>
    rw [feed_cons (handle_characters t)]
    exact ih (T.characters t) hlive
  | raw _ ih =>
    rw [feed_cons handle_openRaw]
    exact ih T.openRaw hlive
  | endRaw _ ih =>
    rw [feed_cons handle_closeRaw]
    exact ih T.closeRaw hlive

theorem balances (T : Tracks client h origin live [] c) (horigin : origin.capturing = true) :
    c.Balances h origin.saved live := by
  obtain ⟨inner, hsaved, hall⟩ := T.sessions
  refine ⟨Leaves.map_captures (by simpa using T.pending), inner, ?_, ?_, hall⟩
  · simpa [Converter.ground, horigin] using hsaved
  · simpa [length_groups] using hall.length_eq

theorem begun (ha : Attends client client.isSome h) (c : Converter κ) (mode : Mode) :
    Tracks client h ((c.beginCapture mode).start client.isSome) [] []
      ((c.beginCapture mode).start client.isSome) :=
  .start ha rfl (.new c.config.indentWidth mode) nofun

end Tracks

namespace Operation
variable {client : Option (Client σ κ)} {h : Option (Habit σ κ)}

theorem convert_ends {d : Document} {w v : World σ κ}
    (hf : feed client d.read.events ⟨w.client, w.converter.start client.isSome⟩ = .ok () v) :
    (∃ c, convert client d w = .ok () ⟨v.client, c⟩) ∨
    (∃ m c, convert client d w = .error (.malformed m) ⟨v.client, c⟩ ∧
      v.converter.config.strict = true) ∨
    ∃ name why c, convert client d w = .error (.unusableEncoding name why) ⟨v.client, c⟩ ∧
      ∃ b, d = .bytes b := by
  have hnext : (do feed client d.read.events; conclude d d.read.ending : Operation σ κ Unit)
      ⟨w.client, w.converter.start client.isSome⟩ = conclude d d.read.ending v := bind_ok hf
  simp only [convert, deliver, hnext]
  rcases conclude_ends d d.read.ending v with ⟨c, hc⟩ | ⟨m, hc, hs⟩ | ⟨name, why, he, hc⟩
  · rw [hc]
    exact .inl ⟨_, rfl⟩
  · rw [hc]
    exact .inr (.inl ⟨m, _, rfl, hs⟩)
  · rw [hc]
    refine .inr (.inr ⟨name, why, _, rfl, ?_⟩)
    cases d with
    | text units => exact absurd he (Document.text_ending_ne units name why)
    | bytes b => exact ⟨b, rfl⟩

/-- Fed with any nested sequence of events after a capture has begun, the converter stays
balanced, and an item would have the marker of the innermost list. A conversion gives Markdown
for every document, unless it is strict or cannot use the encoding of the bytes. -/
theorem feed_nested_balanced (ha : Attends client client.isSome h) :
    (∀ (w : World σ κ) (mode : Mode) (es : List Event), Event.Nested [] es →
      ∃ w' opened,
        feed client es ⟨w.client, (w.converter.beginCapture mode).start client.isSome⟩ =
          .ok () w' ∧
        opened.map (·.1) = Event.openNames [] es ∧
        w'.converter.Balances h (w.converter.beginCapture mode).saved opened ∧
        ∀ attributes kind own outer, groups opened = (kind :: own) :: outer →
          ∃ v, handle client (.openElement Element.item.tag attributes) w' = .ok () v ∧
            v.converter.session.output = marker (some kind) ::
              w'.converter.session.indent.decrement.margin.1 :: w'.converter.session.output) ∧
    ∀ (d : Document) (w : World σ κ),
      (∃ t w', toMarkdown client d w = .ok t w') ∨
      (∃ m w', toMarkdown client d w = .error (.malformed m) w' ∧
        w.converter.config.strict = true) ∨
      ∃ name why w', toMarkdown client d w = .error (.unusableEncoding name why) w' ∧
        ∃ b, d = .bytes b := by
  refine ⟨fun w mode es hes => ?_, fun d w => ?_⟩
  · obtain ⟨w', opened, hfeed, hnames, T⟩ := Tracks.run (w := ⟨w.client, _⟩) hes rfl
      (.begun ha w.converter mode) rfl
    have hb := T.balances rfl
    refine ⟨w', opened, hfeed, hnames, hb, fun attributes kind own outer hg => ?_⟩
    obtain ⟨inner, -, -, hall⟩ := hb.sessions
    rw [hg] at hall
    have hlists := (List.forall₂_cons.mp hall).1.lists
    refine ⟨_, handle_openLayout attributes (Element.ofTag?_tag .item), ?_⟩
    exact (Session.openElement_item_output _ attributes).trans (by rw [hlists]; rfl)
  · have hes := d.read_nested
    obtain ⟨v, opened, hfeed, -, T⟩ := Tracks.run (w := ⟨w.client, _⟩) hes rfl
      (.begun ha w.converter.reset .markdown) rfl
    have hconvert := convert_ends (w := ⟨w.client, w.converter.reset.beginCapture .markdown⟩) hfeed
    change (∃ t w', (convert client d >>= fun _ => endCapture) _ = _) ∨
      (∃ m w', (convert client d >>= fun _ => endCapture) _ = _ ∧ _) ∨
      ∃ name why w', (convert client d >>= fun _ => endCapture) _ = _ ∧ _
    rcases hconvert with ⟨c, hc⟩ | ⟨m, c, hc, hs⟩ | ⟨name, why, c, hc, hd⟩
    · exact .inl ⟨_, _, bind_ok hc⟩
    · exact .inr (.inl ⟨m, _, bind_error hc, T.config ▸ hs⟩)
    · exact .inr (.inr ⟨name, why, _, bind_error hc, hd⟩)

private def cutInName : List Event :=
  [.openElement "Function".toList [], .openElement (Element.list .bullet).tag [],
    .openElement Element.item.tag [], .characters "x".toList,
    .openElement "Name".toList [], .openElement (Element.list .number).tag []]

theorem cutInName_nested : Event.Nested [] cutInName :=
  .opened [] (.opened [] (.opened [] (.text _ (.opened [] (.opened [] (.nil _))))))

theorem feed_cutInName :
    Attends (some Builder.client) true (some Builder.habit) ∧
    ∃ w' opened,
      feed (some Builder.client) cutInName
        ⟨{}, ((Converter.new {}).beginCapture .markdown).start true⟩ = .ok () w' ∧
      opened.map (·.1) = ["List-Number".toList, "Name".toList, "Item".toList,
        "List-Bullet".toList, "Function".toList] ∧
      w'.converter.Balances (some Builder.habit) [] opened ∧
      groups opened = [[.number], [.bullet]] ∧
      ∃ v, handle (some Builder.client) (.openElement Element.item.tag []) w' = .ok () v ∧
        v.converter.session.output = marker (some .number) ::
          w'.converter.session.indent.decrement.margin.1 :: w'.converter.session.output := by
  have ha : Attends (some Builder.client) true (some Builder.habit) :=
    .offered Builder.client_follows
  obtain ⟨w', opened, hfeed, hnames, hb, hitem⟩ :=
    (feed_nested_balanced ha).1 ⟨{}, .new {}⟩ .markdown cutInName cutInName_nested
  have hcaptures : opened.map (·.2) = [false, true, false, false, false] := by
    rw [← hb.pending]
    cases hfeed
    rfl
  have hgroups : groups opened = [[.number], [.bullet]] := by
    rw [List.zip_of_prod hnames hcaptures]
    rfl
  exact ⟨ha, w', opened, hfeed, hnames, hb, hgroups, hitem [] .number [] [[.bullet]] hgroups⟩

end Operation
end DocMarkdown
