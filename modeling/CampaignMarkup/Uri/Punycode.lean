import CampaignMarkup.Text.Number

/-! # Names of hosts in ASCII

A label of a host's name that holds other characters than ASCII is written as its ASCII characters
and, behind a hyphen, where the others belong. These are taken in ascending order; each is a
number that tells how far to go on from the one before, in digits of base 36 whose weights adapt
to the numbers seen so far.
-/
namespace CampaignMarkup.Uri.Punycode

/-- The digits are the letters and then the decimal digits. -/
def digit (n : Nat) : Char :=
  if n < 26 then Char.ofNat (97 + n) else Char.ofNat (22 + n)

/-- The least value of a digit that is not the last of its number. -/
def threshold (bias position : Nat) : Nat :=
  if position ≤ bias then 1 else if bias + 26 ≤ position then 26 else position - bias

theorem threshold_pos (bias position : Nat) : 0 < threshold bias position := by
  unfold threshold
  split
  · omega
  · split <;> omega

/-- A number, lowest digit first. -/
def digits (bias position n : Nat) : List Char :=
  let least := threshold bias position
  if n < least then [digit n]
  else
    digit (least + (n - least) % (36 - least))
      :: digits bias (position + 36) ((n - least) / (36 - least))
termination_by n
decreasing_by
  have := threshold_pos bias position
  exact Nat.lt_of_le_of_lt (Nat.div_le_self _ _) (by omega)

def scaled (delta position : Nat) : Nat :=
  if 455 < delta then scaled (delta / 35) (position + 36)
  else position + 36 * delta / (delta + 38)
termination_by delta
decreasing_by exact Nat.div_lt_self (by omega) (by omega)

/-- The bias for the next number. The first number of a label says least about the others. -/
def adapt (delta handled : Nat) (first : Bool) : Nat :=
  let damped := if first then delta / 700 else delta / 2
  scaled (damped + damped / handled) 0

/-- A label written in part. -/
structure Progress where
  written : List Char := []
  /-- The distance from the last character that was written. -/
  delta : Nat := 0
  bias : Nat := 72
  /-- The characters of the label that are written. -/
  handled : Nat
deriving DecidableEq, Repr, Inhabited

/-- Goes past one character of the label on the way to those that equal `target`. -/
def pass (ascii target : Nat) (p : Progress) (c : Char) : Progress :=
  if c.toNat < target then { p with delta := p.delta + 1 }
  else if c.toNat = target then
    { written := p.written ++ digits p.bias 36 p.delta
      delta := 0
      bias := adapt p.delta (p.handled + 1) (p.handled = ascii)
      handled := p.handled + 1 }
  else p

/-- Writes the characters beyond ASCII, `targets` in ascending order, from `reached` on. -/
def writeAll (label : List Char) (ascii reached : Nat) (p : Progress) : List Nat → Progress
  | [] => p
  | target :: targets =>
    let p := { p with delta := p.delta + (target - reached) * (p.handled + 1) }
    let p := label.foldl (pass ascii target) p
    writeAll label ascii (target + 1) { p with delta := p.delta + 1 } targets

def encode (label : List Char) : List Char :=
  let ascii := label.filter (·.toNat < 0x80)
  let targets := ((label.map Char.toNat).filter (0x80 ≤ ·)).eraseDups.mergeSort (· ≤ ·)
  let p := writeAll label ascii.length 0x80 { handled := ascii.length } targets
  ascii ++ (if ascii.isEmpty then [] else ['-']) ++ p.written

def digitValue? (c : Char) : Option Nat :=
  if 'a' ≤ c ∧ c ≤ 'z' then some (c.toNat - 97)
  else if Chars.isDigit c then some (c.toNat - 22)
  else none

/-- A number off the front of a text, lowest digit first, whose first digit counts `weight`. -/
def number? (bias position weight : Nat) : List Char → Option (Nat × List Char)
  | [] => none
  | c :: cs => do
    let d ← digitValue? c
    if d < threshold bias position then return (d * weight, cs)
    else
      let (n, rest) ←
        number? bias (position + 36) (weight * (36 - threshold bias position)) cs
      return (d * weight + n, rest)

theorem number?_length_lt {bias position weight n : Nat} {cs rest : List Char}
    (h : number? bias position weight cs = some (n, rest)) : rest.length < cs.length := by
  induction cs generalizing position weight n with
  | nil => simp [number?] at h
  | cons c cs ih =>
    unfold number? at h
    obtain ⟨d, -, h⟩ := Option.bind_eq_some_iff.mp h
    split at h
    · cases h
      simp
    · obtain ⟨⟨m, r⟩, hm, h⟩ := Option.bind_eq_some_iff.mp h
      cases h
      have := ih hm
      simp only [List.length_cons]
      omega

/-- Puts the characters that `code` tells of where they belong. The one put last is `reached`, and
stands before the place `next`. -/
def insertAll (text : List Char) (bias reached next : Nat) (code : List Char) :
    Option (List Char) :=
  if code.isEmpty then some text
  else
    match h : number? bias 36 1 code with
    | none => none
    | some (delta, rest) =>
      let places := text.length + 1
      let c := reached + (next + delta) / places
      let place := (next + delta) % places
      if c.isValidChar then
        insertAll (text.insertIdx place (Char.ofNat c)) (adapt delta places (next = 0)) c
          (place + 1) rest
      else none
termination_by code.length
decreasing_by exact number?_length_lt h

/-- The label that a code stands for. A hyphen divides its ASCII characters, if it has any, from the
code of the others. -/
def decode? (code : List Char) : Option (List Char) :=
  match code.reverse.dropWhile (· ≠ '-') with
  | [] => insertAll [] 72 0x80 0 code
  | [_] => none
  | _ :: ascii =>
    insertAll ascii.reverse 72 0x80 0 (code.reverse.takeWhile (· ≠ '-')).reverse

end CampaignMarkup.Uri.Punycode
