import SchemaGraph.Text.Casing
import SchemaGraph.Text.Space

namespace SchemaGraph.Terminal

/-!
# Styles

A style is described by words: attributes, `not` in front of one that is switched off, a
colour, `on` in front of the colour of the ground, and `link` in front of an address.  Two
descriptions with the same effect have one normal form.

* `Style.ofWords` — the style that words describe
* `Style.text`    — the normal form of a style
* `styleName`     — the normal form of any description
-/

/-- A style. -/
structure Style where
  /-- Attributes that are switched on or off; of several settings the last one counts. -/
  attributes : List (String × Bool) := []
  color : Option String := none
  ground : Option String := none
  link : Option String := none
deriving DecidableEq, Repr

/-- The attributes in the order of normal forms. -/
def styleAttributes : List String :=
  ["bold", "dim", "italic", "underline", "blink", "blink2", "reverse", "conceal", "strike",
    "underline2", "frame", "encircle", "overline"]

/-- Short words for attributes. -/
def shortAttributes : List (String × String) :=
  [("d", "dim"), ("b", "bold"), ("i", "italic"), ("u", "underline"), ("r", "reverse"),
    ("c", "conceal"), ("s", "strike"), ("uu", "underline2"), ("o", "overline")]

/-- The attribute that a word stands for. -/
def attribute? (word : String) : Option String :=
  if styleAttributes.contains word then some word
  else (shortAttributes.find? fun a => a.1 = word).map (·.2)

/-! ### Colours -/

/-- The colours that have a name. -/
def colorNames : List String := [
  "black red green yellow blue magenta cyan white bright_black bright_red bright_green",
  "bright_yellow bright_blue bright_magenta bright_cyan bright_white grey0 gray0 navy_blue",
  "dark_blue blue3 blue1 dark_green deep_sky_blue4 dodger_blue3 dodger_blue2 green4",
  "spring_green4 turquoise4 deep_sky_blue3 dodger_blue1 green3 spring_green3 dark_cyan",
  "light_sea_green deep_sky_blue2 deep_sky_blue1 spring_green2 cyan3 dark_turquoise turquoise2",
  "green1 spring_green1 medium_spring_green cyan2 cyan1 dark_red deep_pink4 purple4 purple3",
  "blue_violet orange4 grey37 gray37 medium_purple4 slate_blue3 royal_blue1 chartreuse4",
  "dark_sea_green4 pale_turquoise4 steel_blue steel_blue3 cornflower_blue chartreuse3",
  "cadet_blue sky_blue3 steel_blue1 pale_green3 sea_green3 aquamarine3 medium_turquoise",
  "chartreuse2 sea_green2 sea_green1 aquamarine1 dark_slate_gray2 dark_magenta dark_violet",
  "purple light_pink4 plum4 medium_purple3 slate_blue1 yellow4 wheat4 grey53 gray53",
  "light_slate_grey light_slate_gray medium_purple light_slate_blue dark_olive_green3",
  "dark_sea_green light_sky_blue3 sky_blue2 dark_sea_green3 dark_slate_gray3 sky_blue1",
  "chartreuse1 light_green pale_green1 dark_slate_gray1 red3 medium_violet_red magenta3",
  "dark_orange3 indian_red hot_pink3 medium_orchid3 medium_orchid medium_purple2 dark_goldenrod",
  "light_salmon3 rosy_brown grey63 gray63 medium_purple1 gold3 dark_khaki navajo_white3 grey69",
  "gray69 light_steel_blue3 light_steel_blue yellow3 dark_sea_green2 light_cyan3",
  "light_sky_blue1 green_yellow dark_olive_green2 dark_sea_green1 pale_turquoise1 deep_pink3",
  "magenta2 hot_pink2 orchid medium_orchid1 orange3 light_pink3 pink3 plum3 violet",
  "light_goldenrod3 tan misty_rose3 thistle3 plum2 khaki3 light_goldenrod2 light_yellow3 grey84",
  "gray84 light_steel_blue1 yellow2 dark_olive_green1 honeydew2 light_cyan1 red1 deep_pink2",
  "deep_pink1 magenta1 orange_red1 indian_red1 hot_pink dark_orange salmon1 light_coral",
  "pale_violet_red1 orchid2 orchid1 orange1 sandy_brown light_salmon1 light_pink1 pink1 plum1",
  "gold1 navajo_white1 misty_rose1 thistle1 yellow1 light_goldenrod1 khaki1 wheat1 cornsilk1",
  "grey100 gray100 grey3 gray3 grey7 gray7 grey11 gray11 grey15 gray15 grey19 gray19 grey23",
  "gray23 grey27 gray27 grey30 gray30 grey35 gray35 grey39 gray39 grey42 gray42 grey46 gray46",
  "grey50 gray50 grey54 gray54 grey58 gray58 grey62 gray62 grey66 gray66 grey70 gray70 grey74",
  "gray74 grey78 gray78 grey82 gray82 grey85 gray85 grey89 gray89 grey93 gray93"].flatMap fun line => Text.words line.toList

/-- A word that makes no style, and cannot be passed over either. -/
inductive ColorFault where
  /-- One of three numbers has no digit. -/
  | noDigit
deriving DecidableEq, Repr

/-- What stands between the given start and a closing bracket at the end. -/
def between? (start word : String) : Option (List Char) :=
  if word.startsWith start && word.endsWith ")" then
    some ((word.toList.drop start.length).dropLast)
  else none

/-- The number that digits spell. -/
def digitsValue (cs : List Char) : Nat :=
  cs.foldl (fun n c => 10 * n + (c.toNat - '0'.toNat)) 0

/-- Parts of a text between commas. -/
def splitCommas : List Char → List (List Char)
  | [] => [[]]
  | c :: rest =>
    if c = ',' then [] :: splitCommas rest
    else
      match splitCommas rest with
      | [] => [[c]]
      | part :: parts => (c :: part) :: parts

/-- Whether a word in lower case is a colour: by name, by six hexadecimal digits, by its
    number, or by three numbers. -/
def isColor (word : String) : Except ColorFault Bool :=
  if word = "default" || colorNames.contains word then .ok true
  else
    match word.toList with
    | '#' :: digits =>
      .ok (digits.length = 6 && digits.all fun c => c.isDigit || ('a' ≤ c && c ≤ 'f'))
    | _ =>
      match between? "color(" word, between? "rgb(" word with
      | some cs, _ =>
        .ok (!cs.isEmpty && cs.length ≤ 3 && cs.all Char.isDigit && digitsValue cs ≤ 255)
      | none, some cs =>
        let parts := splitCommas cs
        if cs.isEmpty || !cs.all (fun c => c.isDigit || c = ',') || parts.length ≠ 3 then .ok false
        else if parts.any List.isEmpty then .error .noDigit
        else .ok (parts.all fun p => digitsValue p ≤ 255)
      | none, none => .ok false

/-! ### Descriptions -/

/-- What the word in front asks for. -/
inductive Awaited where
  | ground
  /-- An attribute that is switched off. -/
  | attribute
  | address
deriving DecidableEq, Repr

namespace Style

/-- A style with an attribute switched on or off. -/
def switch (style : Style) (name : String) (on : Bool) : Style :=
  { style with attributes := style.attributes ++ [(name, on)] }

/-- A style with what one more word says, and what that word asks for; nothing if the word
    has no meaning.  Attributes and colours may be in any case, but not behind `not`. -/
def addWord (style : Style) (awaited : Option Awaited) (word : String) :
    Except ColorFault (Option (Style × Option Awaited)) := do
  let lower := Text.lower word
  match awaited with
  | some .ground =>
    .ok (if ← isColor lower then some ({ style with ground := some lower }, none) else none)
  | some .attribute => .ok ((attribute? word).map fun a => (style.switch a false, none))
  | some .address => .ok (some ({ style with link := some word }, none))
  | none =>
    match lower, attribute? lower with
    | "on", _ => .ok (some (style, some .ground))
    | "not", _ => .ok (some (style, some .attribute))
    | "link", _ => .ok (some (style, some .address))
    | _, some a => .ok (some (style.switch a true, none))
    | _, none =>
      .ok (if ← isColor lower then some ({ style with color := some lower }, none) else none)

/-- The style that words describe, if they do. -/
def ofWords (style : Style) (awaited : Option Awaited) :
    List String → Except ColorFault (Option Style)
  | [] => .ok (if awaited.isNone then some style else none)
  | word :: rest => do
    match ← style.addWord awaited word with
    | some (style, awaited) => ofWords style awaited rest
    | none => .ok none

/-- The last setting of an attribute. -/
def setting? (style : Style) (name : String) : Option Bool :=
  (style.attributes.reverse.find? fun a => a.1 = name).map (·.2)

/-- The normal form of a style. -/
def text (style : Style) : String :=
  let attributes := styleAttributes.filterMap fun a =>
    (style.setting? a).map fun on => if on then a else "not " ++ a
  let ground := style.ground.toList.flatMap fun c => ["on", c]
  let link := style.link.toList.flatMap fun address => ["link", address]
  match attributes ++ style.color.toList ++ ground ++ link with
  | [] => "none"
  | parts => " ".intercalate parts

end Style

/-- The normal form of a description; one that describes no style is put in lower case. -/
def styleName (description : List Char) : Except ColorFault String := do
  match ← Style.ofWords {} none (Text.words description) with
  | some style => .ok style.text
  | none => .ok (Text.lower (String.ofList (Text.trim description)))

end SchemaGraph.Terminal
