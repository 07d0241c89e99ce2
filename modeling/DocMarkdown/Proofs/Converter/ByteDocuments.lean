import DocMarkdown.Proofs.Converter.Conversion
import Mathlib

/-! What becomes of documents given as bytes. Whatever bytes they are, the events before a fault are
converted, and a fault is reported once or raised, as the policy has it. The policy is not asked
where a document declares an encoding that cannot be used: then nothing of it is read, and the
conversion stops. -/

namespace DocMarkdown
open Layout Xml

namespace Xml

/-- The document begins with a declaration that names an encoding, before which its bytes are read
as `e`. -/
inductive Declares (bytes : List UInt8) (e : Encoding) (name : Text) : Prop
  | intro {marked : Bool} {c : Cell} {cells rest : List Cell} {i : Instruction} {header : Header}
      {offset : Nat} (hopening : Opening.read bytes = if marked then .marked e else .plain e)
      (hcells : (if marked then (e.cells bytes).tail else e.cells bytes) = c :: cells)
      (hlexeme : readLexeme c cells = .ok (.instruction i, rest))
      (hdeclaration : i.isDeclaration = true)
      (hheader : Header.read i.body i.endOffset = .ok header)
      (hname : header.encoding = some (name, offset))

def Misdeclares (bytes : List UInt8) (name : Text) (why : Misfit) : Prop :=
  ∃ e, Declares bytes e name ∧ namedEncoding? e name = none ∧
    CharacterSet.ofName name = .unusable why

theorem chooseEncoding_unusable_iff {e : Encoding} {name : Text} {why : Misfit} :
    chooseEncoding e name = .unusable why ↔
      namedEncoding? e name = none ∧ CharacterSet.ofName name = .unusable why := by
  unfold chooseEncoding
  cases hnamed : namedEncoding? e name with
  | some known =>
    refine iff_of_false ?_ nofun
    dsimp only
    split <;> nofun
  | none => cases CharacterSet.ofName name <;> simp

theorem Body.declares_of_open {bytes : List UInt8} {e : Encoding} {name : Text} {why : Misfit}
    (marked : Bool) (hopening : Opening.read bytes = if marked then .marked e else .plain e)
    (h : Body.open false bytes e marked = .error (.unusableEncoding name why)) :
    Declares bytes e name ∧ chooseEncoding e name = .unusable why := by
  unfold Body.open at h
  dsimp only at h
  split at h
  · rename_i c cells hcells
    split at h
    · rename_i i rest hlexeme
      split at h
      · rename_i hdeclaration
        split at h
        · cases h
        · rename_i header hheader
          split at h
          · rename_i declared offset hfalse hname
            cases hchoice : chooseEncoding e declared with
            | use known => rw [hchoice] at h; cases h
            | refused reason => rw [hchoice] at h; cases h
            | unusable misfit =>
              rw [hchoice] at h
              cases h
              exact ⟨⟨hopening, hcells, hlexeme, hdeclaration, hheader, hname⟩, hchoice⟩
          · cases h
      · cases h
    · cases h
  · cases h

theorem Body.open_of_declares {bytes : List UInt8} {e : Encoding} {name : Text} {why : Misfit}
    (h : Declares bytes e name) (hchoice : chooseEncoding e name = .unusable why) :
    ∃ marked, Opening.read bytes = (if marked then .marked e else .plain e) ∧
      Body.open false bytes e marked = .error (.unusableEncoding name why) := by
  obtain ⟨hopening, hcells, hlexeme, hdeclaration, hheader, hname⟩ := h
  refine ⟨_, hopening, ?_⟩
  unfold Body.open
  simp only [hcells, hlexeme, hdeclaration, hheader, hname, hchoice, if_true]

theorem readBytes_of_unusable {bytes : List UInt8} {name : Text} {why : Misfit}
    (h : (readBytes false bytes).ending = .unusableEncoding name why) :
    Misdeclares bytes name why ∧ (readBytes false bytes).events = [] := by
  unfold readBytes at h ⊢
  dsimp only at h ⊢
  split at h
  · rename_i ending hopened
    obtain rfl : ending = .unusableEncoding name why := h
    have hdeclares : ∃ e, Declares bytes e name ∧ chooseEncoding e name = .unusable why := by
      split at hopened
      · cases hopened
      · cases hopened
      · rename_i e hopening
        exact ⟨e, Body.declares_of_open false hopening hopened⟩
      · rename_i e hopening
        exact ⟨e, Body.declares_of_open true hopening hopened⟩
    obtain ⟨e, hdeclares, hchoice⟩ := hdeclares
    exact ⟨⟨e, hdeclares, chooseEncoding_unusable_iff.mp hchoice⟩, rfl⟩
  · exact absurd h (Body.read_ending_ne _ name why)

theorem readBytes_of_misdeclares {bytes : List UInt8} {name : Text} {why : Misfit}
    (h : Misdeclares bytes name why) :
    (readBytes false bytes).ending = .unusableEncoding name why := by
  obtain ⟨e, hdeclares, hchoice⟩ := h
  obtain ⟨marked, hopening, hopened⟩ :=
    Body.open_of_declares hdeclares (chooseEncoding_unusable_iff.mpr hchoice)
  unfold readBytes
  cases marked <;> simp only [hopening, hopened, if_true, Bool.false_eq_true, if_false]

end Xml

namespace Operation
variable {σ κ : Type}

/-- Every document of bytes is converted up to its end or to its fault, and a fault is reported
once by a lenient conversion and raised by a strict one, which keeps what it has captured. The only
other end is that of a document with a declared encoding that cannot be used: nothing of it is read,
nothing is reported, and the conversion stops under either policy. -/
theorem toMarkdown_bytes (x : σ) (c : Converter κ) (bytes : List UInt8) :
    let d := Document.bytes bytes
    let r := toMarkdown none d ⟨x, c⟩
    (∀ name why, d.read.ending = .unusableEncoding name why ↔ Misdeclares bytes name why) ∧
    (∀ name why, Misdeclares bytes name why → d.read.events = [] ∧
      ∃ v, r = .error (.unusableEncoding name why) v ∧ v.converter.reports = c.reports) ∧
    ((∀ name why, ¬ Misdeclares bytes name why) →
      (d.read.ending = .complete ∧
        ∃ v, r = .ok (d.markdown c.config) v ∧ v.converter.reports = c.reports) ∨
      ∃ reason place, d.read.ending = .malformed reason place ∧
        let m := Malformed.ofReading reason place d
        if c.config.strict then
          ∃ v, r = .error (.malformed m) v ∧ v.converter.reports = c.reports ∧
            v.converter.capturing = true ∧ v.converter.session.captured = d.markdown c.config
        else ∃ v, r = .ok (d.markdown c.config) v ∧ v.converter.reports = m :: c.reports) := by
  intro d r
  obtain ⟨v, hreports, hresult⟩ := toMarkdown_verdict x c d
  refine ⟨fun name why => ⟨fun h => (readBytes_of_unusable h).1, readBytes_of_misdeclares⟩, ?_, ?_⟩
  · intro name why h
    have hending : d.read.ending = .unusableEncoding name why := readBytes_of_misdeclares h
    simp only [Document.verdict, hending] at hreports hresult
    exact ⟨(readBytes_of_unusable hending).2, v, hresult.1, hreports⟩
  · intro h
    cases hending : d.read.ending with
    | complete =>
      simp only [Document.verdict, hending] at hreports hresult
      exact .inl ⟨rfl, v, hresult, hreports⟩
    | malformed reason place =>
      refine .inr ⟨reason, place, rfl, ?_⟩
      by_cases hstrict : c.config.strict = true
      · simp only [Document.verdict, hending, hstrict, if_true] at hreports hresult
        rw [if_pos hstrict]
        exact ⟨v, hresult.1, hreports, hresult.2⟩
      · simp only [Document.verdict, hending, hstrict, Bool.false_eq_true, if_false]
          at hreports hresult
        rw [if_neg hstrict]
        exact ⟨v, hresult, hreports⟩
    | unusableEncoding name why => exact absurd (readBytes_of_unusable hending).1 (h name why)

private def unknownName : List UInt8 :=
  Text.Utf8.encode "<?xml version='1.0' encoding='foo'?><r>a</r>".toList

private def brokenByte : List UInt8 :=
  Text.Utf8.encode "<r><emphasis>a_b</emphasis>".toList ++ [0xff]

set_option maxRecDepth 8000 in
private theorem unknownName_read :
    (Document.bytes unknownName).read = ⟨[], .unusableEncoding "foo".toList .unknown⟩ := by rfl

set_option maxRecDepth 8000 in
private theorem brokenByte_read :
    (Document.bytes brokenByte).read =
      ⟨[.openElement "r".toList [], .openElement "emphasis".toList [], .characters "a_b".toList,
        .closeElement "emphasis".toList], .malformed .invalidToken ⟨1, 27⟩⟩ := by cbv

theorem toMarkdown_brokenByte :
    let c : Converter Empty := .new {}
    let m := Malformed.ofReading .invalidToken ⟨1, 27⟩ (.bytes brokenByte)
    (Misdeclares unknownName "foo".toList .unknown ∧
      ∃ v, toMarkdown none (.bytes unknownName) ⟨(), c⟩ =
        .error (.unusableEncoding "foo".toList .unknown) v ∧ v.converter.reports = []) ∧
    (∀ name why, ¬ Misdeclares brokenByte name why) ∧
    ∃ v, toMarkdown none (.bytes brokenByte) ⟨(), c⟩ = .ok "*a\\_b*".toList v ∧
      v.converter.reports = [m] := by
  intro c m
  obtain ⟨hunknown, hstops, -⟩ := toMarkdown_bytes () c unknownName
  obtain ⟨hbroken, -, hreads⟩ := toMarkdown_bytes () c brokenByte
  have hmisdeclares : Misdeclares unknownName "foo".toList .unknown :=
    (hunknown _ _).mp (congrArg Reading.ending unknownName_read)
  have hdeclares : ∀ name why, ¬ Misdeclares brokenByte name why := by
    intro name why h
    have hending := (hbroken name why).mpr h
    rw [brokenByte_read] at hending
    cases hending
  have hmarkdown : (Document.bytes brokenByte).markdown c.config = "*a\\_b*".toList := by
    rw [Document.markdown, brokenByte_read]
    rfl
  refine ⟨⟨hmisdeclares, (hstops _ _ hmisdeclares).2⟩, hdeclares, ?_⟩
  rcases hreads hdeclares with ⟨hcomplete, -⟩ | ⟨reason, place, hending, hlenient⟩
  · rw [brokenByte_read] at hcomplete
    cases hcomplete
  · rw [brokenByte_read] at hending
    cases hending
    rw [hmarkdown] at hlenient
    exact hlenient

end Operation
end DocMarkdown
