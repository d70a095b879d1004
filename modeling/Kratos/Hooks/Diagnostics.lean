/- source: domain/hooks/index.ts
   digest: The rewrites that bring a diagnostic to its normal form. -/

import Kratos.Foundation.Regexes

set_option autoImplicit false

namespace Kratos.Hooks

open Foundation.Text Foundation.Regexes
open Foundation.Utf8 (unitsOfCodePoint)

/-- A terminal's escape sequence: its opening, parameters, intermediates and the final point. -/
def ansiEscape : Regex :=
  .sequence [.any (· == 0x1B), .word "[", .star true (.any (pointIn '0' '?')),
    .star true (.any (pointIn ' ' '/')), .any (pointIn '@' '~')]

def stripAnsi (value : JsString) : JsString := ansiEscape.replace (fun _ => []) value

def stripControls (value : JsString) : JsString :=
  (((codePoints value).filter fun code =>
    code == 0x09 || code == 0x0A || code == 0x0D || decide (0x20 ≤ code)).filter fun code =>
      code != 0x7F).flatMap unitsOfCodePoint

section Patterns

def digit : Regex := .any digitPoint

def alnum : Regex := .any alnumPoint

def month : Regex :=
  .alt (.seq (.word "0") (.any (pointIn '1' '9'))) (.seq (.word "1") (.any (pointIn '0' '2')))

def dayOfMonth : Regex :=
  .oneOf [.seq (.word "0") (.any (pointIn '1' '9')), .seq (.any (pointIn '1' '2')) digit,
    .seq (.word "3") (.any (pointIn '0' '1'))]

def hours : Regex :=
  .alt (.seq (.any (pointIn '0' '1')) digit) (.seq (.word "2") (.any (pointIn '0' '3')))

def sixty : Regex := .seq (.any (pointIn '0' '5')) digit

/-- A timestamp with a zone, between word boundaries. -/
def timestampRegex : Regex :=
  .sequence [.wordBoundary wordPoint, .times 4 digit, .word "-",
    month, .word "-", dayOfMonth, .word "T", hours, .word ":", sixty,
    .word ":", sixty, .maybe (.sequence [.word ".", digit, .upTo 8 digit]),
    .alt (.word "Z") (.sequence [.any (fun point => point == '+'.toNat || point == '-'.toNat),
      hours, .word ":", sixty]),
    .wordBoundary wordPoint]

def hexAnyCase (count : Nat) : Regex :=
  .times count (.any fun point => digitPoint point || pointIn 'a' 'f' point || pointIn 'A' 'F' point)

def uuidRegex : Regex :=
  .sequence [.wordBoundary wordPointAnyCase, hexAnyCase 8, .word "-", hexAnyCase 4, .word "-",
    hexAnyCase 4, .word "-", hexAnyCase 4, .word "-", hexAnyCase 12,
    .wordBoundary wordPointAnyCase]

def segmentEnd (separator : Nat) : Regex :=
  .ahead true (.oneOf [.any (· == separator), .any spacePoint, .finish])

/-- `(?=(?:[A-Za-z0-9]*<kind>){2}[A-Za-z0-9]*<end>)`. -/
def twoOf (kind : Regex) (separator : Nat) : Regex :=
  .ahead true (.sequence [.times 2 (.seq (.star true alnum) kind), .star true alnum,
    segmentEnd separator])

/-- What follows the marker of a temporary name. -/
def nonce (separator : Nat) : Regex :=
  .sequence [.word "-",
    .oneOf [.atLeast 6 digit,
      .atLeast 8 (.any fun point => pointIn 'a' 'f' point || digitPoint point),
      .sequence [.ahead true (.seq (.times 6 alnum) (segmentEnd separator)),
        twoOf (.any letterPoint) separator, twoOf digit separator, .times 6 alnum]],
    segmentEnd separator]

/-- `[^<separator>\s]+?-(?:test|tmp|temp|run|build|cache)`. -/
def temporaryName (separator : Nat) : Regex :=
  .sequence [.lazyPlus (.any fun point => point != separator && !spacePoint point), .word "-",
    .oneOf [.word "test", .word "tmp", .word "temp", .word "run", .word "build", .word "cache"]]

def temporaryNonce : Regex :=
  .seq (.group 1 (.sequence [.alt (.word "/tmp") (.word "/var/tmp"), .word "/",
    temporaryName '/'.toNat])) (nonce '/'.toNat)

def windowsTemporaryNonce : Regex :=
  .seq (.group 1 (.sequence [.any letterPoint, .word ":\\",
    .alt (.sequence [.word "Users\\",
        .plus (.any fun point => point != '\\'.toNat && !spacePoint point),
        .word "\\AppData\\Local\\Temp"])
      (.word "Windows\\Temp"),
    .word "\\", temporaryName '\\'.toNat])) (nonce '\\'.toNat)

/-- `[^\s:()]+?\.[A-Za-z0-9]{1,10}`. -/
def fileName : Regex :=
  .sequence [.lazyPlus (.any fun point => !spacePoint point && point != ':'.toNat &&
      point != '('.toNat && point != ')'.toNat),
    .word ".", alnum, .upTo 9 alnum]

/-- `(^|[\s(])(<file>):\d+:\d+\b`. -/
def position (file : Regex) : Regex :=
  .sequence [.group 1 (.alt .start (.any fun point => spacePoint point || point == '('.toNat)),
    .group 2 file, .word ":", .plus digit, .word ":", .plus digit, .wordBoundary wordPoint]

def windowsPositionRegex : Regex :=
  position (.sequence [.any letterPoint, .word ":\\", fileName])

def positionRegex : Regex := position fileName

def lineColumnRegex : Regex :=
  .sequence [.wordBoundary wordPointAnyCase, .wordAnyCase "line", .plus (.any spacePoint),
    .plus digit, .star true (.any spacePoint), .word ",", .star true (.any spacePoint),
    .wordAnyCase "column", .plus (.any spacePoint), .plus digit, .wordBoundary wordPointAnyCase]

end Patterns

/-- `$1-<nonce>`. -/
def nonceTemplate (groups : List (Nat × List Nat)) : List Nat :=
  captured groups 1 ++ points "-<nonce>"

/-- `$1$2:<line>:<column>`. -/
def positionTemplate (groups : List (Nat × List Nat)) : List Nat :=
  captured groups 1 ++ captured groups 2 ++ points ":<line>:<column>"

def normalizeCandidateDiagnostic (value : JsString) : JsString :=
  let value := stripControls (stripAnsi value)
  let value := timestampRegex.replace (fun _ => points "<timestamp>") value
  let value := uuidRegex.replace (fun _ => points "<uuid>") value
  let value := temporaryNonce.replace nonceTemplate value
  let value := windowsTemporaryNonce.replace nonceTemplate value
  let value := windowsPositionRegex.replace positionTemplate value
  let value := positionRegex.replace positionTemplate value
  let value := lineColumnRegex.replace (fun _ => points "line <line>, column <column>") value
  trim ((Regex.plus (.any spacePoint)).replace (fun _ => points " ") value)

example : normalizeCandidateDiagnostic (js "at a.ts:3:14  in /tmp/x-run-123456/y") =
    js "at a.ts:<line>:<column> in /tmp/x-run-<nonce>/y" := by decide +kernel

end Kratos.Hooks
