import DrFrakeVpn.BacktrackingRegex

/-! # The text of an AWG config file

`removeAWGPeer` runs a Python script over it that deletes what a regular expression matches. -/
namespace AwgConfig

open BacktrackingRegex

/-! The fixed texts of a block; proofs use them by name only. -/

@[irreducible] def peerHeader : List Char := "[Peer]".toList
@[irreducible] def keyLabel : List Char := "PublicKey = ".toList
@[irreducible] def pskLabel : List Char := "PresharedKey = ".toList
@[irreducible] def ipLabel : List Char := "AllowedIPs = ".toList
@[irreducible] def hostMask : List Char := "/32".toList

/-- The text that the heredoc of `addAWGPeer` appends: an empty line and four lines. -/
def peerBlock (publicKey presharedKey allowedIP : List Char) : List Char :=
  '\n' :: (peerHeader ++ '\n' :: (keyLabel ++ publicKey ++ '\n' :: (pskLabel ++ presharedKey ++
    '\n' :: (ipLabel ++ (allowedIP ++ hostMask) ++ ['\n']))))

/-- A symbol followed by that many `+`: one repeats it, two repeat it possessively, and more
are an error of the pattern. -/
def quantified (c : Char) : ℕ → Option (Regex Char)
  | 0 => some (.set fun d => d = c)
  | 1 => some (.plus (.set fun d => d = c))
  | 2 => some (.atomic (.plus (.set fun d => d = c)))
  | _ => none

/-- The symbols are read from the right, with the number of `+` seen since the last one. -/
def parseSymbol (c : Char) : ℕ × Option (Regex Char) → ℕ × Option (Regex Char)
  | (pluses, rest) =>
    if c = '+' then (pluses + 1, rest)
    else (0, (quantified c pluses).bind fun r => rest.map fun q => .seq r q)

/-- How Python reads a pattern whose only special symbol is `+`; that is the one special
symbol of the base64 alphabet. -/
def parsePlain (text : List Char) : Option (Regex Char) :=
  match text.foldr parseSymbol (0, some .empty) with
  | (0, r) => r
  | (_ + 1, _) => none

/-- `\n\[Peer\]\n`. -/
def header : List Char := '\n' :: (peerHeader ++ ['\n'])

/-- `[^\[]`. -/
def notBracket (c : Char) : Bool := c ≠ '['

/-- `PublicKey = %s\n`. -/
def keyLine (publicKey : List Char) : List Char := keyLabel ++ (publicKey ++ ['\n'])

/-- The lines that the pattern skips between the header and the key: `(?:[^\[]*\n)*?`. -/
def skippedLines : Regex Char := .many false (.seq (.many true (.set notBracket)) (.literal ['\n']))

/-- What the pattern takes after the key: `(?:[^\[]*)*`. -/
def restOfSection : Regex Char := .many true (.many true (.set notBracket))

def cleanPattern (publicKey : List Char) : Option (Regex Char) :=
  (parsePlain (keyLine publicKey)).map fun line =>
    .seq (.literal header) (.seq skippedLines (.seq line restOfSection))

/-- A file opened as text: each line end reads as a newline. -/
def universalNewlines : List Char → List Char
  | '\r' :: '\n' :: cs => '\n' :: universalNewlines cs
  | '\r' :: cs => '\n' :: universalNewlines cs
  | c :: cs => c :: universalNewlines cs
  | [] => []

/-- The clean-up script of `removeAWGPeer`; with a pattern that does not compile it stops
before it writes. -/
def cleanConfig (publicKey content : List Char) : List Char :=
  match cleanPattern publicKey with
  | none => content
  | some pattern => pattern.deleteAll (universalNewlines content)

end AwgConfig
