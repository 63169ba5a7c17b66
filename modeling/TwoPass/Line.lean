import TwoPass.Problem
import TwoPass.Text.Blank
import TwoPass.Text.Name

/-! Source lines: blank, a comment, a section directive, a label, or content.

Content is an instruction in a code section and an item in a data section; a comment after it does
not belong to it. -/

set_option autoImplicit false

namespace TwoPass

inductive Section where
  | code
  | data
  deriving DecidableEq, Repr

def Section.name : Section → Text
  | .code => "code"
  | .data => "data"

def Section.ofName? (name : Text) : Option Section :=
  if name == Section.code.name then some .code
  else if name == Section.data.name then some .data
  else none

inductive Line.Body where
  | blank
  | comment
  | directive (target : Section)
  | label (name : Text)
  | content
  deriving DecidableEq, Repr

def Line.Body.kind : Line.Body → Text
  | .blank => "BLANK"
  | .comment => "COMMENT"
  | .directive _ => "DIRECTIVE"
  | .label _ => "LABEL"
  | .content => "CONTENT"

/-- A line that has been read. `raw` is the whole line without its break, `text` the line without
surrounding blanks and, for content, without a comment; `indent` is the offset of `text` in `raw`. -/
structure Line where
  file : Text
  number : Int
  raw : Text
  indent : Nat
  text : Text
  body : Line.Body
  deriving DecidableEq, Repr

namespace Line

def location (line : Line) (offset : Nat) : Location :=
  ⟨line.file, line.number, line.indent + offset + 1⟩

def problem (line : Line) (fault : Fault) (offset : Nat) : Problem :=
  ⟨fault, some (line.location offset), some line.raw⟩

def argument (text : Text) : Text := Text.trim (Text.upTo ';' (text.drop 1))

/-- Decides what trimmed text is. A fault comes with its offset into the text. -/
def Body.ofText (text : Text) : Except (Fault × Nat) Body :=
  match text with
  | [] => .ok .blank
  | ';' :: _ => .ok .comment
  | '.' :: _ =>
    match Section.ofName? (argument text) with
    | some target => .ok (.directive target)
    | none => .error (.unknownDirective (Text.firstWord text), 0)
  | ':' :: _ =>
    if Text.isName (argument text) then .ok (.label (argument text))
    else .error (.malformed (.invalidLabelLine text), 1)
  | _ => .ok .content

def isLineEnd (c : Char) : Bool := c == '\r' || c == '\n'

def withoutBreak (raw : Text) : Text := Text.trimEnd isLineEnd raw

def read (raw : Text) (file : Text) (number : Int) : Except Problem Line :=
  let raw := withoutBreak raw
  let text := Text.trim raw
  let indent := raw.length - (Text.trimLeft raw).length
  match Body.ofText text with
  | .ok .content => .ok ⟨file, number, raw, indent, Text.trimRight (Text.upTo ';' text), .content⟩
  | .ok body => .ok ⟨file, number, raw, indent, text, body⟩
  | .error (fault, offset) => .error ⟨fault, some ⟨file, number, indent + offset + 1⟩, some raw⟩

def ofContent (content : Text) (indent : Nat) (file : Text) (number : Int) : Line :=
  ⟨file, number, content, indent, content, .content⟩

end Line

end TwoPass
