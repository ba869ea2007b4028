import Reckoner.Unicode.WidthTables

/-! # Columns in a terminal

The width of a text is found from right to left: what a character adds depends
on the characters after it, as in emoji sequences and in ligatures that a
terminal draws in one place. -/

namespace Reckoner.Unicode

/-- What the text to the right begins with, as far as it matters to the
character before it. `joined` says that a zero width joiner stands in front. -/
inductive Following where
  | plain
  | lineFeed
  | skinTone
  | regional
  | regionalRun
  | emoji
  | joinedEmoji
  | joinedKeycap
  | joinedRegional
  | joinedRegionalEven
  | joinedRegionalOdd
  | tagLetters (count : Nat)
  | tagDigits (count : Nat)
  | arabicAlef
  | hebrewLamed (joined : Bool)
  | bugineseYa (joined : Bool)
  | bugineseVowelYa
  | tifinagh (joined : Bool)
  | tifinaghPair
  | lisuTone
  | orkhonI (joined : Bool)
  | khmerLetter
  deriving DecidableEq, Repr

namespace Following

/-- The first letter of a ligature's right part. Variation selectors do not
interrupt a ligature. -/
def isLigature : Following → Bool
  | .arabicAlef | .hebrewLamed _ | .bugineseYa _ | .bugineseVowelYa | .tifinagh _
  | .tifinaghPair | .lisuTone | .orkhonI _ | .khmerLetter => true
  | _ => false

/-- Default ignorable marks do not interrupt this ligature. -/
def isTransparent (following : Following) : Bool :=
  following.isLigature && following != .arabicAlef

def join : Following → Following
  | .hebrewLamed _ => .hebrewLamed true
  | .bugineseYa _ => .bugineseYa true
  | .tifinagh _ => .tifinagh true
  | .orkhonI _ => .orkhonI true
  | following => following

/-- An emoji that a joiner ties to the character before it. -/
def isJoinedEmoji (following : Following) : Bool :=
  following == .joinedEmoji || following == .joinedKeycap

end Following

/-- A variation selector that waits for its base. -/
inductive Selector where
  | none
  | text
  | emoji
  deriving DecidableEq, Repr

/-- What a character must know of the text to its right. -/
structure RightContext where
  following : Following
  selector : Selector
  deriving DecidableEq, Repr

namespace RightContext

def plain : RightContext := ⟨.plain, .none⟩

def of (following : Following) : RightContext := ⟨following, .none⟩

end RightContext

def isTifinagh (code : Nat) : Bool :=
  0x2d31 ≤ code && code ≤ 0x2d65 || code = 0x2d6f

def isRegional (code : Nat) : Bool :=
  0x1f1e6 ≤ code && code ≤ 0x1f1ff

def isSkinTone (code : Nat) : Bool :=
  0x1f3fb ≤ code && code ≤ 0x1f3ff

/-- Khmer letters that take a subscript form after a coeng sign. -/
def khmerSubscript : Ranges := [
  (0x1780, 0x1782), (0x1784, 0x1787), (0x1789, 0x178c), (0x178e, 0x1793), (0x1795, 0x1798),
  (0x179b, 0x179d), (0x17a0, 0x17a0), (0x17a2, 0x17a2), (0x17a7, 0x17a7), (0x17ab, 0x17ac),
  (0x17af, 0x17af)]

/-- Letters of the joining group Alef. -/
def arabicAlefs : Ranges := [
  (0x622, 0x623), (0x625, 0x625), (0x627, 0x627), (0x671, 0x673), (0x675, 0x675),
  (0x773, 0x774), (0x870, 0x882)]

/-- Letters of the joining group Lam. -/
def arabicLams : Ranges := [
  (0x644, 0x644), (0x6b5, 0x6b8), (0x76a, 0x76a), (0x8a6, 0x8a6), (0x8c7, 0x8c7)]

/-- Marks that a ligature other than the Arabic one ignores. -/
def ligatureIgnored : Ranges := [
  (0x34f, 0x34f), (0x17b4, 0x17b5), (0x180b, 0x180d), (0x180f, 0x180f), (0x200d, 0x200d),
  (0xfe00, 0xfe0f), (0xe0100, 0xe01ef)]

/-- The width of a character by itself. -/
def charWidth (c : Char) : Nat :=
  if c.toNat < 0xa1 then 1
  else if c.toNat = 0x17d8 then 3
  else if zeroWidth.contains c then 0
  else if wide.contains c then 2
  else 1

/-- What a character by itself is for the character before it. -/
def followingOf (c : Char) : RightContext :=
  let code := c.toNat
  if code < 0x5dc then .plain
  else if code = 0x5dc then .of (.hebrewLamed false)
  else if arabicAlefs.contains c then .of .arabicAlef
  else if khmerSubscript.contains c then .of .khmerLetter
  else if code = 0x1a10 then .of (.bugineseYa false)
  else if isTifinagh code then .of (.tifinagh false)
  else if code = 0xa4fc || code = 0xa4fd then .of .lisuTone
  else if code = 0xfe0e then ⟨.plain, .text⟩
  else if code = 0xfe0f then ⟨.plain, .emoji⟩
  else if code = 0x10c03 then .of (.orkhonI false)
  else if isRegional code then .of .regional
  else if isSkinTone code then .of .skinTone
  else if emojiPresentation.contains c then .of .emoji
  else .plain

/-- The effect of a character on a sequence that begins to its right: the
columns it adds, and the new context. None when the sequence does not take
the character up. -/
def sequenceStep? (c : Char) (following : Following) : Option (Int × Following) :=
  let code := c.toNat
  match following with
  | .arabicAlef =>
      if arabicLams.contains c then some (0, .plain)
      else if zeroWidth.contains c && !nonJoining.contains c then some (0, .arabicAlef)
      else none
  | .hebrewLamed true => if code = 0x5d0 then some (0, .plain) else none
  | .khmerLetter => if code = 0x17d2 then some (-1, .plain) else none
  | .bugineseYa true => if code = 0x1a17 then some (0, .bugineseVowelYa) else none
  | .bugineseVowelYa => if code = 0x1a15 then some (0, .plain) else none
  | .tifinagh joined =>
      if code = 0x2d7f then some (1, .tifinaghPair)
      else if joined && isTifinagh code then some (0, .plain)
      else none
  | .tifinaghPair => if isTifinagh code then some (-1, .plain) else none
  | .lisuTone => if 0xa4f8 ≤ code && code ≤ 0xa4fb then some (0, .plain) else none
  | .orkhonI true => if code = 0x10c32 then some (0, .plain) else none
  | .skinTone =>
      if emojiModifierBase.contains c then some (0, .emoji)
      else if code = 0x200d then some (0, .joinedEmoji)
      else none
  | .regional => if isRegional code then some (1, .regionalRun) else none
  | .regionalRun =>
      if isRegional code then some (1, .regionalRun)
      else if code = 0x200d then some (0, .joinedEmoji)
      else none
  | .emoji => if code = 0x200d then some (0, .joinedEmoji) else none
  | .joinedEmoji =>
      if code = 0x20e3 then some (0, .joinedKeycap)
      else if isRegional code then some (1, .joinedRegional)
      else if isSkinTone code then some (0, .skinTone)
      else if code = 0xe007f then some (0, .tagLetters 0)
      else if followingOf c = .of .emoji then some (0, .emoji)
      else none
  | .joinedRegional => if isRegional code then some (-1, .joinedRegionalEven) else none
  | .joinedRegionalEven =>
      if isRegional code then some (3, .joinedRegionalOdd)
      else if code = 0x200d then some (0, .joinedEmoji)
      else none
  | .joinedRegionalOdd =>
      if isRegional code then some (-1, .joinedRegionalEven)
      else if code = 0x200d then some (0, .joinedEmoji)
      else none
  | .tagLetters count =>
      if count < 6 && 0xe0061 ≤ code && code ≤ 0xe007a then some (0, .tagLetters (count + 1))
      else if count < 5 && 0xe0030 ≤ code && code ≤ 0xe0039 then some (0, .tagDigits 1)
      else if 3 ≤ count && code = 0x1f3f4 then some (0, .emoji)
      else none
  | .tagDigits count =>
      if count < 3 && 0xe0030 ≤ code && code ≤ 0xe0039 then some (0, .tagDigits (count + 1))
      else if count = 3 && code = 0x1f3f4 then some (0, .emoji)
      else none
  | _ => none

/-- The context that remains once a waiting selector has not found its base. -/
def RightContext.dropSelector (context : RightContext) : RightContext :=
  match context.selector with
  | .none => context
  | .text => .of context.following
  | .emoji => if context.following.isLigature then .of context.following else .plain

/-- A character that no selector waits for. -/
def bareStep (c : Char) (following : Following) : Int × RightContext :=
  let code := c.toNat
  if following = .plain then (charWidth c, followingOf c)
  else if code = 0xfe0f then
    (0, if following.isLigature || following.isJoinedEmoji then ⟨following, .emoji⟩
        else ⟨.plain, .emoji⟩)
  else if code = 0xfe0e then
    (0, if following.isLigature then ⟨following, .text⟩ else ⟨.plain, .text⟩)
  else if following.isTransparent && code = 0x200d then (0, .of following.join)
  else if following.isTransparent && ligatureIgnored.contains c then (0, .of following)
  else
    match sequenceStep? c following with
    | some (columns, next) => (columns, .of next)
    | none => (charWidth c, followingOf c)

/-- The columns a character adds in front of a text, and the new context. -/
def widthStep (c : Char) (context : RightContext) : Int × RightContext :=
  let code := c.toNat
  if context.selector = .emoji && variationBase.contains c then
    (if context.following.isJoinedEmoji then 0 else 2, .of .emoji)
  else if code ≤ 0xa0 then
    if c = '\n' then (0, .of .lineFeed)
    else if c = '\r' && context = .of .lineFeed then (0, .plain)
    else (1, .plain)
  else if context.selector = .text && code ≠ 0xfe0f && code ≠ 0xfe0e && textBase.contains c then
    (1, .plain)
  else bareStep c context.dropSelector.following

/-- Width and context of a text. -/
def measure (text : List Char) : Int × RightContext :=
  text.foldr
    (fun c (columns, context) =>
      let (added, next) := widthStep c context
      (columns + added, next))
    (0, .plain)

/-- The columns a text takes in a terminal. -/
def width (text : List Char) : Nat :=
  (measure text).1.toNat

end Reckoner.Unicode
