import DocMarkdown.Proofs.Client.Sharing
import DocMarkdown.Proofs.Converter.Isolation
import DocMarkdown.Proofs.Xml.OpenTree

/-! The parameters in the record. There is one for each parameter of the document that has no other
parameter in it, and it says what the last name and the last discussion within it say. One that has
another in it is lost, for the builder keeps only one parameter open. -/

namespace DocMarkdown
open Layout Xml Operation

namespace Xml.Tree

mutual

/-- The parts in a tree with their contents, in the order in which they end. -/
def parts : Tree → List (Part × List Tree)
  | element name _ content => partsAll content ++ (Part.ofTag? name).toList.map (·, content)
  | _ => []

def partsAll : List Tree → List (Part × List Tree)
  | [] => []
  | t :: rest => t.parts ++ partsAll rest

end

def contentsOf (part : Part) (content : List Tree) : List (List Tree) :=
  (partsAll content).filterMap fun p => if p.1 = part then some p.2 else none

def directOf (part : Part) (content : List Tree) : List (List Tree) :=
  content.filterMap fun
    | element name _ inner => if Part.ofTag? name = some part then some inner else none
    | _ => none

mutual

/-- How a tree is laid out while a parameter is open. What the parts in it say is captured, and the
text goes to the session around as it is. -/
def inlay (width : Nat) : Tree → Session → Session
  | characters t, s => s.literal t
  | raw pieces, s => s.rawBlock pieces.flatten
  | element name attributes content, s =>
    match Element.ofTag? name, (Part.ofTag? name).bind Builder.habit.mode with
    | some e, _ =>
      let opened := s.openElement e attributes
      (inlayAll width content opened.1).closeWith opened.2
    | none, some mode => s.write (inlayAll width content (.new width mode)).captured
    | none, none => inlayAll width content s

def inlayAll (width : Nat) : List Tree → Session → Session
  | [], s => s
  | t :: rest, s => inlayAll width rest (inlay width t s)

end

def said (width : Nat) (mode : Mode) (content : List Tree) : Text :=
  (inlayAll width content (.new width mode)).captured

end Xml.Tree

open Tree

def Parameter.after (width : Nat) (p : Parameter) (names discussions : List (List Tree)) :
    Parameter where
  name := (names.getLast?.map fun content => (said width .text content).trim).getD p.name
  discussion := (discussions.getLast?.map (said width .markdown)).or p.discussion

def Parameter.within (width : Nat) (p : Parameter) (content : List Tree) : Parameter :=
  p.after width (contentsOf .name content) (contentsOf .discussion content)

namespace Xml.Tree
variable (part : Part) (content rest : List Tree)

theorem contentsOf_cons (t : Tree) :
    contentsOf part (t :: rest) = contentsOf part [t] ++ contentsOf part rest := by
  simp only [contentsOf, partsAll, List.append_nil, List.filterMap_append]

theorem contentsOf_element (name : Text) (attributes : Attributes) :
    contentsOf part [element name attributes content] =
      contentsOf part content ++ if Part.ofTag? name = some part then [content] else [] := by
  have hsingle : ∀ q : Option Part, (q.toList.map (·, content)).filterMap
      (fun p : Part × List Tree => if p.1 = part then some p.2 else none) =
        if q = some part then [content] else [] := by
    intro q
    cases q with
    | none => rfl
    | some q =>
      by_cases hq : q = part
      · simp [hq]
      · simp [hq]
  simp only [contentsOf, partsAll, parts, List.append_nil, List.filterMap_append, hsingle]

/-- The parameters of the record, each from the content of an element with no parameter in it. -/
def parametersIn (width : Nat) : List Parameter :=
  ((contentsOf .parameter content).filter fun c => (contentsOf .parameter c).isEmpty).map
    (Parameter.within width {})

theorem parametersIn_cons (width : Nat) (t : Tree) :
    parametersIn (t :: rest) width = parametersIn [t] width ++ parametersIn rest width := by
  rw [parametersIn, contentsOf_cons, List.filter_append, List.map_append]
  rfl

end Xml.Tree

namespace Parameter
variable (width : Nat) (p : Parameter)

theorem within_cons (t : Tree) (rest : List Tree) :
    p.within width (t :: rest) = (p.within width [t]).within width rest := by
  simp only [within, after, contentsOf_cons _ rest t, List.getLast?_append]
  congr 1
  · cases (contentsOf .name rest).getLast? <;> rfl
  · cases (contentsOf .discussion rest).getLast? <;> rfl

def noted (part : Part) (t : Text) : Parameter :=
  match part with
  | .name => { p with name := t.trim }
  | .discussion => { p with discussion := some t }
  | _ => p

theorem within_plain {name : Text} (hname : Part.ofTag? name = none) (attributes : Attributes)
    (content : List Tree) :
    p.within width [element name attributes content] = p.within width content := by
  simp [within, contentsOf_element, hname]

theorem within_part {name : Text} {part : Part} (hname : Part.ofTag? name = some part)
    {mode : Mode} (hmode : Builder.habit.mode part = some mode) (attributes : Attributes)
    (content : List Tree) :
    p.within width [element name attributes content] =
      (p.within width content).noted part (said width mode content) := by
  cases part with
  | name | discussion =>
    cases hmode
    simp [within, contentsOf_element, hname, after, noted]
  | _ => simp [within, contentsOf_element, hname, noted]

end Parameter

namespace Builder
variable {b : Builder} {done : List Parameter} {slot : Option Parameter}

structure Lists (b : Builder) (done : List Parameter) (slot : Option Parameter) : Prop where
  done : b.record.parameters = done
  slot : b.parameter = slot

theorem Lists.root (h : b.Lists done slot) (name : Text) (attributes : Attributes) :
    (b.root name attributes).Lists done slot := by
  unfold Builder.root
  split <;> exact ⟨h.done, h.slot⟩

theorem Lists.openParameter (h : b.Lists done slot) :
    Lists { b with parameter := some {} } done (some {}) := ⟨h.done, rfl⟩

theorem Lists.endParameter (h : b.Lists done slot) :
    b.endParameter.Lists (done ++ slot.toList) none := by
  obtain ⟨rfl, rfl⟩ := h
  unfold Builder.endParameter
  cases hslot : b.parameter with
  | none => exact ⟨(List.append_nil _).symm, hslot⟩
  | some p => exact ⟨rfl, rfl⟩

theorem Lists.store (h : b.Lists done slot) (part : Part) (t : Text) :
    (b.store part t).Lists done (slot.map (·.noted part t)) := by
  obtain ⟨rfl, rfl⟩ := h
  cases part with
  | name =>
    simp only [Builder.store, setName]
    cases hslot : b.parameter with
    | none => exact ⟨rfl, rfl⟩
    | some p => exact ⟨rfl, rfl⟩
  | discussion =>
    refine ⟨rfl, ?_⟩
    simp only [Builder.store, setDiscussion]
    cases b.parameter <;> rfl
  | _ =>
    refine ⟨rfl, ?_⟩
    simp only [Builder.store]
    cases b.parameter <;> rfl

theorem mode_of_captureMode {part : Part} {mode : Mode} (h : b.captureMode part = some mode) :
    habit.mode part = some mode := by
  cases part with
  | discussion =>
    simp only [captureMode] at h
    split at h
    · exact h
    · cases h
  | _ => exact h

theorem captureMode_of_open {p : Parameter} (h : b.parameter = some p) (part : Part) :
    b.captureMode part = habit.mode part := by
  cases part with
  | discussion => simp [captureMode, h, habit]
  | _ => rfl

section Opening
variable {name : Text} {attributes : Attributes} {w : World Builder Part}

theorem opening_plain (hname : Part.ofTag? name = none) :
    habit.opening name attributes w = (none, w.client.root name attributes) := by
  simp only [habit, hname]

theorem opening_parameter (hname : Part.ofTag? name = some .parameter) :
    habit.opening name attributes w =
      (some .parameter, { w.client.root name attributes with parameter := some {} }) := by
  simp only [habit, hname]

theorem opening_part {part : Part} (hname : Part.ofTag? name = some part)
    (hpart : part ≠ .parameter) :
    habit.opening name attributes w =
      (((w.client.root name attributes).captureMode part).map fun _ => part,
        w.client.root name attributes) := by
  simp only [habit, hname]

end Opening
end Builder

namespace Xml.Tree
open Builder
variable {content : List Tree} {b : Builder} {s : Session} {done : List Parameter}

theorem evalAll_within (around : Converter Part) {p : Parameter}
    (hnone : contentsOf .parameter content = []) (hb : b.Lists done (some p)) :
    let v := evalAll (some habit) around content (b, s)
    v.1.Lists done (some (p.within around.config.indentWidth content)) ∧
      v.2 = inlayAll around.config.indentWidth content s := by
  induction content using contentInduction generalizing around b s p with
  | nil => exact ⟨hb, rfl⟩
  | characters t rest ih => exact ih around hnone hb
  | raw pieces rest ih => exact ih around hnone hb
  | element name attributes content rest ihc ih =>
    rw [contentsOf_cons, contentsOf_element, List.append_eq_nil_iff, List.append_eq_nil_iff]
      at hnone
    obtain ⟨⟨hcontent, hname⟩, hrest⟩ := hnone
    let width := around.config.indentWidth
    suffices helement :
        (eval (some habit) around (element name attributes content) (b, s)).1.Lists done
          (some (p.within width [element name attributes content])) ∧
        (eval (some habit) around (element name attributes content) (b, s)).2 =
          inlay width (element name attributes content) s by
      obtain ⟨hlists, hsession⟩ := helement
      rw [p.within_cons, inlayAll, ← hsession]
      exact ih around hrest hlists
    cases he : Element.ofTag? name with
    | some e =>
      have hplain := ofTag?_part_of_element he
      obtain ⟨hlists, hsession⟩ := ihc (s := (s.openElement e attributes).1)
        (around.push (.ofAction (s.openElement e attributes).2)) hcontent hb
      rw [eval_layout he, p.within_plain width hplain]
      refine ⟨hlists, ?_⟩
      simp only [inlay, he]
      exact congrArg _ hsession
    | none =>
      have hroot := hb.root name attributes
      cases hpart : Part.ofTag? name with
      | none =>
        obtain ⟨hlists, hsession⟩ := ihc (s := s) (around.push .nothing) hcontent hroot
        rw [eval_passed he (opening_plain hpart), p.within_plain width hpart]
        refine ⟨hlists, ?_⟩
        simp only [inlay, he, hpart, Option.bind_none]
        exact hsession
      | some part =>
        have hne : part ≠ .parameter := by
          rintro rfl
          simp [hpart] at hname
        let root := b.root name attributes
        have hmode : root.captureMode part = habit.mode part := captureMode_of_open hroot.slot part
        cases hm : habit.mode part with
        | none => cases part <;> cases hm; exact absurd rfl hne
        | some mode =>
          have hopening : habit.opening name attributes (around.showing (b, s)) =
              (some part, root) := by
            rw [opening_part hpart hne]
            simp only [Converter.showing, root, hmode, hm, Option.map_some]
          let inner : Converter Part := { around with saved := s :: around.saved }
          obtain ⟨hlists, hsession⟩ := ihc (s := around.fresh mode) (inner.push (.client part))
            hcontent hroot
          rw [eval_captured he hopening hm, p.within_part width hpart hm]
          dsimp only
          rw [hsession]
          refine ⟨hlists.store part _, ?_⟩
          simp only [inlay, he, hpart, Option.bind_some, hm]
          rfl

end Xml.Tree

namespace Builder
open Xml.Tree

def Gathers (width : Nat) (content : List Tree) (b b' : Builder) : Prop :=
  ∀ done slot, b.Lists done slot → ∃ slot',
    b'.Lists (done ++ parametersIn content width) slot' ∧
    (slot = none ∨ contentsOf .parameter content ≠ [] → slot' = none)

namespace Gathers
variable {width : Nat} {b b' b'' : Builder} {t : Tree} {content rest : List Tree} {name : Text}
  {attributes : Attributes}

theorem nil : Gathers width [] b b := by
  intro done slot hb
  refine ⟨slot, ⟨?_, hb.slot⟩, fun h => h.resolve_right fun hne => hne rfl⟩
  simp [parametersIn, contentsOf, partsAll, hb.done]

theorem cons (h : Gathers width [t] b b') (hrest : Gathers width rest b' b'') :
    Gathers width (t :: rest) b b'' := by
  intro done slot hb
  obtain ⟨slot', hlists, hslot⟩ := h done slot hb
  obtain ⟨slot'', hlists', hslot'⟩ := hrest _ slot' hlists
  refine ⟨slot'', ?_, fun hclosed => hslot' ?_⟩
  · rw [parametersIn_cons, ← List.append_assoc]
    exact hlists'
  · rw [contentsOf_cons, ne_eq, List.append_eq_nil_iff, not_and_or] at hclosed
    rcases hclosed with hnone | hfirst | hlater
    · exact .inl (hslot (.inl hnone))
    · exact .inl (hslot (.inr hfirst))
    · exact .inr hlater

theorem root (name : Text) (attributes : Attributes)
    (h : Gathers width content (b.root name attributes) b') : Gathers width content b b' :=
  fun done slot hb => h done slot (hb.root name attributes)

theorem store (h : Gathers width content b b') (part : Part) (t : Text) :
    Gathers width content b (b'.store part t) := by
  intro done slot hb
  obtain ⟨slot', hlists, hslot⟩ := h done slot hb
  refine ⟨_, hlists.store part t, fun hclosed => ?_⟩
  rw [hslot hclosed]
  rfl

theorem unlisted (hname : Part.ofTag? name ≠ some .parameter) (h : Gathers width content b b') :
    Gathers width [element name attributes content] b b' := by
  have hcontents : contentsOf .parameter [element name attributes content] =
      contentsOf .parameter content := by
    rw [contentsOf_element, if_neg hname, List.append_nil]
  rw [Gathers, parametersIn, hcontents]
  exact h

theorem parameter (hname : Part.ofTag? name = some .parameter)
    (h : Gathers width content { b with parameter := some {} } b')
    (hown : contentsOf .parameter content = [] → ∀ {done},
      Lists { b with parameter := some {} } done (some {}) →
        b'.Lists done (some (Parameter.within width {} content))) :
    Gathers width [element name attributes content] b b'.endParameter := by
  intro done slot hb
  have hopened := hb.openParameter
  refine ⟨none, ?_, fun _ => rfl⟩
  by_cases hnone : contentsOf .parameter content = []
  · have hin : parametersIn [element name attributes content] width =
        [Parameter.within width {} content] := by
      simp [parametersIn, contentsOf_element, hname, hnone]
    rw [hin]
    exact (hown hnone hopened).endParameter
  · obtain ⟨slot', hlists, hslot⟩ := h done _ hopened
    obtain rfl : slot' = none := hslot (.inr hnone)
    have hin : parametersIn [element name attributes content] width =
        parametersIn content width := by
      simp [parametersIn, contentsOf_element, hname, hnone]
    rw [hin, ← List.append_nil (done ++ _)]
    exact hlists.endParameter

end Gathers
end Builder

namespace Xml.Tree
open Builder
variable {content : List Tree} {b : Builder} {s : Session}

theorem evalAll_gathers (around : Converter Part) :
    Gathers around.config.indentWidth content b
      (evalAll (some habit) around content (b, s)).1 := by
  induction content using contentInduction generalizing around b s with
  | nil => exact .nil
  | characters t rest ih => exact ih around
  | raw pieces rest ih => exact ih around
  | element name attributes content rest ihc ih =>
    suffices helement : Gathers around.config.indentWidth [element name attributes content] b
        (eval (some habit) around (element name attributes content) (b, s)).1 from
      helement.cons (ih around)
    by_cases hparameter : Part.ofTag? name = some .parameter
    · have he := element_of_ofTag?_part hparameter
      rw [eval_told he (opening_parameter hparameter) rfl]
      refine .root name attributes ?_
      refine .parameter hparameter (ihc (around.push _)) fun hnone _ hopened => ?_
      exact (evalAll_within (around.push _) hnone hopened).1
    · refine .unlisted hparameter ?_
      cases he : Element.ofTag? name with
      | some e =>
        rw [eval_layout he]
        exact ihc (around.push _)
      | none =>
        refine .root name attributes ?_
        cases hpart : Part.ofTag? name with
        | none =>
          rw [eval_passed he (opening_plain hpart)]
          exact ihc (around.push .nothing)
        | some part =>
          have hne : part ≠ .parameter := by
            rintro rfl
            exact hparameter hpart
          let root := b.root name attributes
          have hopening : habit.opening name attributes (around.showing (b, s)) =
              ((root.captureMode part).map fun _ => part, root) := opening_part hpart hne
          cases hm : root.captureMode part with
          | none =>
            rw [hm] at hopening
            rw [eval_passed he hopening]
            exact ihc (around.push .nothing)
          | some mode =>
            rw [hm] at hopening
            rw [eval_captured he hopening (mode_of_captureMode hm)]
            let inner : Converter Part := { around with saved := s :: around.saved }
            exact (ihc (s := around.fresh mode) (inner.push (.client part))).store part _

end Xml.Tree

theorem Xml.Tree.contentsOf_of_direct {part : Part} {content : List Tree}
    (h : ∀ name attributes inner, element name attributes inner ∈ content →
      contentsOf part inner = []) :
    contentsOf part content = directOf part content := by
  induction content with
  | nil => rfl
  | cons t rest ih =>
    have hrest := ih fun name attributes inner hmem =>
      h name attributes inner (List.mem_cons_of_mem t hmem)
    rw [contentsOf_cons, hrest]
    cases t with
    | element name attributes inner =>
      rw [contentsOf_element, h name attributes inner List.mem_cons_self, List.nil_append]
      by_cases hname : Part.ofTag? name = some part
      · simp [directOf, hname]
      · simp [directOf, hname]
    | characters t => rfl
    | raw pieces => rfl

namespace Declaration

theorem parameters_of_build {config : Config} {d : Document} {r : Declaration}
    {content : List Tree} (hd : d.read.events = eventsOf content)
    (hr : (build config d).1 = .ok r) : r.parameters = parametersIn content config.indentWidth := by
  obtain ⟨v, hv, -, rfl⟩ := feed_of_build hr
  let base : Converter Part := (Converter.new config).start true
  have hi : base.Idle := ⟨rfl, rfl, rfl, rfl⟩
  have hfeed : feed (some Builder.client) (eventsOf content ++ [])
      (base.showing ({}, base.session)) = .ok () v := by
    rw [List.append_nil, ← hd]
    exact hv
  obtain ⟨s', hs'⟩ := feed_isolated Builder.client_follows Builder.habit_blind hi hfeed
  cases hs'
  have hempty : Builder.Lists {} [] none := ⟨rfl, rfl⟩
  obtain ⟨slot, hlists, -⟩ := evalAll_gathers (s := base.session) base [] none hempty
  exact hlists.done

/-- A document that is read to its end has one parameter in its record for each parameter in which
no other one stands, in the order in which they end; so it has one for every parameter only where
none stands in another. What a parameter says is what the last name and the last discussion within
it say. If these all stand directly in it, they are its own. -/
theorem build_parameters {config : Config} {d : Document} {r : Declaration}
    (hd : d.read.ending = .complete) (hr : (build config d).1 = .ok r) :
    (∃ content, d.read.events = eventsOf content) ∧
    ∀ content, d.read.events = eventsOf content →
      r.parameters = parametersIn content config.indentWidth ∧
      (r.parameters.length = (contentsOf .parameter content).length ↔
        ∀ c ∈ contentsOf .parameter content, contentsOf .parameter c = []) ∧
      ((∀ c ∈ contentsOf .parameter content, contentsOf .parameter c = [] ∧
          ∀ name attributes inner, element name attributes inner ∈ c →
            contentsOf .name inner = [] ∧ contentsOf .discussion inner = []) →
        r.parameters = (contentsOf .parameter content).map fun c =>
          Parameter.after config.indentWidth {} (directOf .name c) (directOf .discussion c)) := by
  refine ⟨Document.trees_of_complete hd, fun content hcontent => ?_⟩
  have hparameters := parameters_of_build hcontent hr
  refine ⟨hparameters, ?_, fun hdirect => ?_⟩
  · rw [hparameters, parametersIn, List.length_map, List.length_filter_eq_length_iff]
    simp only [List.isEmpty_iff]
  · have hkept : (contentsOf .parameter content).filter
        (fun c => (contentsOf .parameter c).isEmpty) = contentsOf .parameter content :=
      List.filter_eq_self.mpr fun c hc => List.isEmpty_iff.mpr (hdirect c hc).1
    rw [hparameters, parametersIn, hkept]
    refine List.map_congr_left fun c hc => ?_
    have hown := (hdirect c hc).2
    rw [Parameter.within,
      contentsOf_of_direct fun name attributes inner h => (hown name attributes inner h).1,
      contentsOf_of_direct fun name attributes inner h => (hown name attributes inner h).2]

private def closureParameter : Document :=
  .ofString ("<Function><Parameter><Name>f</Name><Parameter><Name>x</Name></Parameter>" ++
    "</Parameter></Function>")

private def closureParameterTree : Tree :=
  .element "Function".toList []
    [.element "Parameter".toList []
      [.element "Name".toList [] [.characters "f".toList],
        .element "Parameter".toList []
          [.element "Name".toList [] [.characters "x".toList]]]]

private def closureParameterEvents : List Event :=
  [.openElement "Function".toList [], .openElement "Parameter".toList [],
    .openElement "Name".toList [], .characters "f".toList, .closeElement "Name".toList,
    .openElement "Parameter".toList [], .openElement "Name".toList [], .characters "x".toList,
    .closeElement "Name".toList, .closeElement "Parameter".toList,
    .closeElement "Parameter".toList, .closeElement "Function".toList]

set_option maxRecDepth 8000 in
private theorem closureParameter_read :
    closureParameter.read = ⟨closureParameterEvents, .complete⟩ := by cbv

private def closureParameterRecord : Declaration where
  kind := some "Function".toList
  parameters := [⟨"x".toList, none⟩]

theorem build_closureParameter :
    closureParameter.read.ending = .complete ∧
    (build {} closureParameter).1 = .ok closureParameterRecord ∧
    closureParameter.read.events = eventsOf [closureParameterTree] ∧
    closureParameterRecord.parameters = parametersIn [closureParameterTree] 4 ∧
    (contentsOf .parameter [closureParameterTree]).length = 2 ∧
    closureParameterRecord.parameters.length ≠
      (contentsOf .parameter [closureParameterTree]).length := by
  have hending : closureParameter.read.ending = .complete := by rw [closureParameter_read]
  have hbuild : (build {} closureParameter).1 = .ok closureParameterRecord := by
    unfold build convert
    rw [closureParameter_read]
    rfl
  have hevents : closureParameter.read.events = eventsOf [closureParameterTree] := by
    rw [closureParameter_read]
    rfl
  obtain ⟨-, hcontent⟩ := build_parameters hending hbuild
  obtain ⟨hparameters, -⟩ := hcontent _ hevents
  have hlength : (contentsOf .parameter [closureParameterTree]).length = 2 := by decide
  refine ⟨hending, hbuild, hevents, hparameters, hlength, ?_⟩
  rw [hlength]
  decide

end Declaration
end DocMarkdown
