/-
# `SeededPlay.SeedCode.Code` — seed codes

A seed code is four segments with dashes between them, such as
`JUMP-FLOT-COLR3-7X3K`: the leading verb, the gravity, the world with a chaos
digit behind it, and the internal seed.  Free-text worlds all share one code, and
the chaos digit keeps the level only to the nearest multiple of eleven.

Writing never looks at more than a `Heading` and a seed.  Reading recovers each
segment by itself and leaves unknown ones open (`Recovered`).
-/
import SeededPlay.Chaos.Level
import SeededPlay.SeedCode.Segment
import SeededPlay.Terms

namespace SeededPlay

/-! ## The words of a code -/

namespace Verb

def code : Verb → String
  | .jump => "JUMP"
  | .shoot => "SHOT"
  | .collect => "GRAB"
  | .dodge => "DODG"
  | .build => "BILD"
  | .explore => "XPLR"
  | .push => "PUSH"
  | .activate => "ACTV"
  | .craft => "CRFT"
  | .defend => "DFND"
  | .dash => "DASH"

def ofCode? (s : String) : Option Verb := (Vocabulary.members : List Verb).find? (·.code == s)

end Verb

namespace Gravity

def code : Gravity → String
  | .normal => "NORM"
  | .low => "FLOT"
  | .shifting => "SHFT"
  | .reverse => "RVRS"

def ofCode? (s : String) : Option Gravity :=
  (Vocabulary.members : List Gravity).find? (·.code == s)

end Gravity

/-- The world templates that have a code of their own. -/
inductive KnownWorld where
  | colorsAlive | soundSolid | memoryTouch | timeUneven
deriving DecidableEq, Repr

instance : Vocabulary KnownWorld where
  members := [.colorsAlive, .soundSolid, .memoryTouch, .timeUneven]
  word
    | .colorsAlive => "colors_alive"
    | .soundSolid => "sound_solid"
    | .memoryTouch => "memory_touch"
    | .timeUneven => "time_uneven"

namespace KnownWorld

def code : KnownWorld → String
  | .colorsAlive => "COLR"
  | .soundSolid => "SOND"
  | .memoryTouch => "MMRY"
  | .timeUneven => "TIME"

end KnownWorld

/-- What a code says about the world: a known template, or some free text. -/
inductive WorldMark where
  | known (world : KnownWorld)
  | custom
deriving DecidableEq, Repr

namespace WorldMark

def all : List WorldMark := (Vocabulary.members : List KnownWorld).map known ++ [custom]

/-- The mark of a world text. -/
def ofText (s : String) : WorldMark :=
  match (Vocabulary.ofWord? s : Option KnownWorld) with
  | some w => known w
  | none => custom

/-- The world text that a mark stands for. -/
def word : WorldMark → String
  | known w => Vocabulary.word w
  | custom => "custom"

def code : WorldMark → String
  | known w => w.code
  | custom => "CSTM"

def ofCode? (s : String) : Option WorldMark := all.find? (·.code == s)

end WorldMark

/-! ## The chaos digit -/

namespace ChaosLevel

/-- How far apart two neighbouring digits are. -/
def step : Nat := 11

/-- The digit of a level: the level in steps, rounded half up, at most nine. -/
def digit (level : ChaosLevel) : Nat :=
  ((Binary64.ofRatio level.value step).add SeedCode.half).floor?.elim 0
    fun n => (max 0 (min 9 n)).toNat

end ChaosLevel

namespace SeedCode

/-! ## Writing -/

/-- What a code says besides the seed. -/
structure Heading where
  verb : Verb
  gravity : Gravity
  world : WorldMark
  digit : Nat
deriving DecidableEq, Repr

/-- The first of a raw list of verbs, a single verb counting as a list of one. -/
def leadVerb (verbs : Datum) : Option Verb :=
  match verbs with
  | .text s => Vocabulary.ofWord? s
  | .list (d :: _) => Vocabulary.ofDatum? d
  | .record ((name, _) :: _) => Vocabulary.ofWord? name
  | _ => none

/-- The heading of raw choices; whatever is missing or unknown becomes the default. -/
def Heading.ofDatum (choices : Datum) : Heading :=
  let field (name : String) : Option Datum :=
    match choices with
    | .record fields => Fields.get? fields name
    | _ => none
  { verb := ((field "verbs").bind leadVerb).getD .jump
    gravity := ((field "gravity").bind Vocabulary.ofDatum?).getD .normal
    world := match field "world_difference" with
      | some (.text s) => .ofText s
      | _ => .custom
    digit := (ChaosLevel.ofDatum ((field "chaos_level").getD (.int 0))).digit }

/-- The code of a heading and a seed of the seed space. -/
def write (h : Heading) (seed : Nat) : String :=
  h.verb.code ++ "-" ++ h.gravity.code ++ "-" ++ h.world.code ++ toString h.digit ++ "-" ++
    writeSegment seed

/-- The code of a heading and a raw seed. -/
def encode (h : Heading) (seed : Datum) : Except Fault String :=
  (normalizeSeed seed).map (write h)

/-! ## Reading -/

/-- What could be read from a code; open fields were not recognised. -/
structure Recovered where
  verb : Option Verb
  gravity : Option Gravity
  world : Option WorldMark
  chaos : Nat
  seed : Nat
deriving DecidableEq, Repr

namespace Recovered

/-- Nothing recognised. -/
def unknown : Recovered := ⟨none, none, none, 0, 0⟩

/-- Whether no word was recognised and the seed is zero. -/
def isBlank (r : Recovered) : Bool :=
  r.verb.isNone && r.gravity.isNone && r.world.isNone && r.seed == 0

/-- The fields as raw values, in order. -/
def fields (r : Recovered) : List (String × Datum) :=
  [("verb", (r.verb.map Vocabulary.datum).getD .null),
   ("gravity", (r.gravity.map Vocabulary.datum).getD .null),
   ("world_difference", (r.world.map fun w => .text w.word).getD .null),
   ("chaos_level", .int r.chaos),
   ("internal_seed", .int r.seed)]

end Recovered

/-- The level of a chaos digit; anything but an ASCII digit means none. -/
def chaosOfDigit (c : Option Char) : Nat :=
  match c with
  | some c => if c.isDigit then (c.toNat - 0x30) * ChaosLevel.step else 0
  | none => 0

/-- The fields of four segments. -/
def ofSegments (verb gravity world seed : List Char) : Recovered :=
  { verb := Verb.ofCode? (String.ofList verb)
    gravity := Gravity.ofCode? (String.ofList gravity)
    world := WorldMark.ofCode? (String.ofList world.dropLast)
    chaos := chaosOfDigit world.getLast?
    seed := readSegment (String.ofList seed) }

/-- A code read in any case, with blanks around it; four segments, or nothing. -/
def decode (code : String) : Recovered :=
  match Text.splitChars '-' (Text.upperChars (Text.trimChars code.toList)) with
  | [verb, gravity, world, seed] => ofSegments verb gravity world seed
  | _ => .unknown

/-- A raw value read as a code; only texts are codes. -/
def decodeDatum : Datum → Recovered
  | .text s => decode s
  | _ => .unknown

/-! ## Sharing -/

/-- Whether a byte stands for itself in an address. -/
def isUnreserved (b : UInt8) : Bool :=
  let c := Char.ofNat b.toNat
  b.toNat < 0x80 && (c.isAlphanum || c == '_' || c == '.' || c == '-' || c == '~')

/-- A byte as it stands in an address. -/
def addressByte (b : UInt8) : List Char :=
  if isUnreserved b then [Char.ofNat b.toNat]
  else '%' :: (Text.hexPadded 2 b.toNat).map Char.toUpper

/-- The address of a code: a start, and the code with its bytes escaped. -/
def shareAddress (start code : String) : String :=
  start ++ String.ofList (code.toUTF8.toList.flatMap addressByte)

end SeedCode

end SeededPlay
