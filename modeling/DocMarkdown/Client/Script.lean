import DocMarkdown.Converter.Run

/-! Clients given as data: for every tag the actions to take when such an element opens and
when it closes. An action may convert another document within the running conversion. A
scripted client keeps a log of the elements offered to it and of the texts it captured. -/

namespace DocMarkdown.Script
open Layout

/-- A document converted by an action has a client of its own, or none. Rules are kept as tag,
actions at the opening, and actions at the end if the end is waited for. -/
inductive Act
  | beginCapture (mode : Mode)
  | endCapture
  | abort
  | reset
  | convert (d : Document) (rules : Option (List (Text × List Act × Option (List Act))))

abbrev Rules := List (Text × List Act × Option (List Act))

inductive Entry
  | opened (name : Text) (attributes : Attributes)
  | closed (name : Text)
  | captured (t : Text)
  deriving DecidableEq

abbrev Log := List Entry

structure Rest where
  name : Text
  acts : List Act

def note (e : Entry) : Operation Log Rest Unit :=
  modify fun w => { w with client := e :: w.client }

def ruleFor (rules : Rules) (name : Text) : Option (List Act × Option (List Act)) :=
  (rules.lookup name).orElse fun _ => rules.lookup "*".toList

def clientOf (run : List Act → Operation Log Rest Unit) (rules : Rules) : Client Log Rest where
  opening name attributes := do
    note (.opened name attributes)
    match ruleFor rules name with
    | none => return none
    | some (opening, closing) =>
      run opening
      return closing.map (⟨name, ·⟩)
  closing rest := do
    note (.closed rest.name)
    run rest.acts

/-- Takes actions in order. Conversions within conversions are nested no deeper than `depth`. -/
def run : Nat → List Act → Operation Log Rest Unit
  | 0, _ => return
  | depth + 1, acts => acts.forM fun
    | .beginCapture mode => Operation.beginCapture mode
    | .endCapture => do note (.captured (← Operation.endCapture))
    | .abort => Operation.abort
    | .reset => Operation.reset
    | .convert d rules => Operation.convert (rules.map (clientOf (run depth))) d

mutual

def Act.depth : Act → Nat
  | .convert _ (some rules) => rulesDepth rules + 1
  | _ => 1

def rulesDepth : List (Text × List Act × Option (List Act)) → Nat
  | [] => 0
  | (_, opening, some closing) :: rest =>
    max (max (actsDepth opening) (actsDepth closing)) (rulesDepth rest)
  | (_, opening, none) :: rest => max (actsDepth opening) (rulesDepth rest)

def actsDepth : List Act → Nat
  | [] => 0
  | a :: rest => max a.depth (actsDepth rest)

end

def client (rules : Rules) : Client Log Rest := clientOf (run (rulesDepth rules)) rules

end DocMarkdown.Script
