import LibCosmos.Core.BitMask
import LibCosmos.Foundation.Numerals

/-
  The texts of file modes, as `ls` prints them
  (`src/fs/FileStatus.cxx`, `include/formatters.hxx`).

  Main declarations:
    * `FileMode.symbolic`, `FileMode.format`
    * `FileMode.symbolic_parse`
    * `FileMode.texts_parsed`
-/

namespace Cosmos

open Numerals

------------------------------------------------------------
-- File Modes
------------------------------------------------------------

namespace FileModeBit

def setUID : BitVec 32 := 0o4000#32
def setGID : BitVec 32 := 0o2000#32
def sticky : BitVec 32 := 0o1000#32
def ownerRead : BitVec 32 := 0o400#32
def ownerWrite : BitVec 32 := 0o200#32
def ownerExec : BitVec 32 := 0o100#32
def groupRead : BitVec 32 := 0o040#32
def groupWrite : BitVec 32 := 0o020#32
def groupExec : BitVec 32 := 0o010#32
def otherRead : BitVec 32 := 0o004#32
def otherWrite : BitVec 32 := 0o002#32
def otherExec : BitVec 32 := 0o001#32

end FileModeBit

structure FileMode where
  mMode : BitMask 32
deriving DecidableEq, Repr

namespace FileMode

def raw (this : FileMode) : BitVec 32 := this.mMode.raw

/-
  A third of `symbolic`: the characters for a class of
  users, where `set` and `unset` stand for a special bit
  with the right to execute and without it.
-/
def rights
    (this : FileMode) (read write exec special : BitVec 32)
    (set unset : Byte) : Except Exn Str := do
  let canRead ← this.mMode.test read
  let canWrite ← this.mMode.test write
  let isSpecial ← this.mMode.test special
  let canExec ← this.mMode.test exec
  .ok
    [if canRead then 114 else 45,
      if canWrite then 119 else 45,
      if isSpecial then (if canExec then set else unset)
      else if canExec then 120 else 45]

/- `symbolic`. -/
def symbolic (this : FileMode) : Except Exn Str := do
  let owner ←
    this.rights FileModeBit.ownerRead FileModeBit.ownerWrite
      FileModeBit.ownerExec FileModeBit.setUID 115 83
  let group ←
    this.rights FileModeBit.groupRead FileModeBit.groupWrite
      FileModeBit.groupExec FileModeBit.setGID 115 83
  let others ←
    this.rights FileModeBit.otherRead FileModeBit.otherWrite
      FileModeBit.otherExec FileModeBit.sticky 116 84
  .ok (owner ++ group ++ others)

/- The formatter, `"{} (0o{:04o})"`. -/
def format (this : FileMode) : Except Exn Str := do
  let text ← this.symbolic
  .ok
    (text ++ str " (0o" ++ padded 8 false 4 this.raw.toNat ++
      str ")")

end FileMode

------------------------------------------------------------
-- Reading Permissions
------------------------------------------------------------

/- What a class of users has. -/
structure Triad where
  read : Bool
  write : Bool
  exec : Bool
  special : Bool
deriving DecidableEq, Repr

namespace Triad

/- How rights are written. -/
def text (this : Triad) (set unset : Byte) : Str :=
  [if this.read then 114 else 45,
    if this.write then 119 else 45,
    if this.special then
      (if this.exec then set else unset)
    else if this.exec then 120 else 45]

/- A character that is there or replaced by a dash. -/
def readFlag (on c : Byte) : Option Bool :=
  if c = on then some true
  else if c = 45 then some false
  else none

/- The right to execute, and the special bit. -/
def readExec (set unset c : Byte) : Option (Bool × Bool) :=
  if c = set then some (true, true)
  else if c = unset then some (false, true)
  else if c = 120 then some (true, false)
  else if c = 45 then some (false, false)
  else none

/- The rights that three characters mean. -/
def parse (set unset : Byte) : Str → Option Triad
| [r, w, x] => do
    let read ← readFlag 114 r
    let write ← readFlag 119 w
    let (exec, special) ← readExec set unset x
    some ⟨read, write, exec, special⟩
| _ => none

theorem readFlag_iff
    (on : Byte) {c : Byte} (hDash : on ≠ 45) (b : Bool) :
    readFlag on c = some b ↔ c = if b then on else 45 := by
  unfold readFlag
  by_cases hOn : c = on
  · subst hOn
    cases b with
    | true => simp
    | false => simp [hDash]
  · by_cases hOff : c = 45
    · subst hOff
      cases b with
      | true => simp [hDash.symm]
      | false => simp [hDash.symm]
    · cases b with
      | true => simp [hOn, hOff]
      | false => simp [hOn, hOff]

/- Letters that cannot be mixed up. -/
structure Letters (set unset : Byte) : Prop where
  cases : set ≠ unset
  setDash : set ≠ 45
  setExec : set ≠ 120
  unsetDash : unset ≠ 45
  unsetExec : unset ≠ 120

theorem readExec_iff
    {set unset c : Byte} (hLetters : Letters set unset)
    (exec special : Bool) :
    readExec set unset c = some (exec, special) ↔
      c =
        if special then (if exec then set else unset)
        else if exec then 120 else 45 := by
  rcases hLetters with ⟨hCases, hDash, hExec, hDash', hExec'⟩
  have hPlain : (120 : Byte) ≠ 45 := by decide
  unfold readExec
  by_cases hSet : c = set
  · subst hSet
    cases exec <;> cases special <;>
      simp [hCases, hDash, hExec]
  by_cases hUnset : c = unset
  · subst hUnset
    cases exec <;> cases special <;>
      simp [hCases.symm, hDash', hExec']
  by_cases hX : c = 120
  · subst hX
    cases exec <;> cases special <;>
      simp [hExec.symm, hExec'.symm]
  by_cases hNone : c = 45
  · subst hNone
    cases exec <;> cases special <;>
      simp [hDash.symm, hDash'.symm]
  · cases exec <;> cases special <;>
      simp [hSet, hUnset, hX, hNone]

theorem parse_iff
    {set unset : Byte} (hLetters : Letters set unset)
    (chars : Str) (this : Triad) :
    parse set unset chars = some this ↔
      chars = this.text set unset := by
  constructor
  · intro hParse
    unfold parse at hParse
    split at hParse
    · next r w x =>
        simp only [Option.bind_eq_bind,
          Option.bind_eq_some_iff] at hParse
        rcases hParse with
          ⟨read, hRead, write, hWrite, ⟨exec, special⟩,
            hExec, hThis⟩
        cases hThis
        rw [readFlag_iff _ (by decide)] at hRead hWrite
        rw [readExec_iff hLetters] at hExec
        rw [hRead, hWrite, hExec]
        rfl
    · cases hParse
  · rintro rfl
    have hRead :=
      (readFlag_iff 114 (by decide) this.read).mpr rfl
    have hWrite :=
      (readFlag_iff 119 (by decide) this.write).mpr rfl
    have hExec :=
      (readExec_iff hLetters this.exec this.special).mpr rfl
    simp only [text, parse, hRead, hWrite, hExec]
    rfl

/- The bits that rights are stored as. -/
def mask
    (this : Triad) (read write exec special : BitVec 32) :
    BitVec 32 :=
  (if this.read then read else 0) |||
    (if this.write then write else 0) |||
    (if this.exec then exec else 0) |||
    (if this.special then special else 0)

end Triad

------------------------------------------------------------
-- Modes and Their Texts
------------------------------------------------------------

namespace FileMode

open Triad

/- The bits of the rights of the three classes. -/
def permissions (owner group others : Triad) : BitVec 32 :=
  owner.mask FileModeBit.ownerRead FileModeBit.ownerWrite
      FileModeBit.ownerExec FileModeBit.setUID |||
    group.mask FileModeBit.groupRead FileModeBit.groupWrite
      FileModeBit.groupExec FileModeBit.setGID |||
    others.mask FileModeBit.otherRead FileModeBit.otherWrite
      FileModeBit.otherExec FileModeBit.sticky

/- The permissions that a symbolic text means. -/
def parseSymbolic (text : Str) : Option (BitVec 32) := do
  let owner ← parse 115 83 (text.take 3)
  let group ← parse 115 83 ((text.drop 3).take 3)
  let others ← parse 116 84 (text.drop 6)
  some (permissions owner group others)

/- The mode that a formatted text means. -/
def parseFormat (text : Str) : Option FileMode := do
  let low ← parseSymbolic (text.take 9)
  let value ← Numerals.parse 8 ((text.drop 13).dropLast)
  if low = BitVec.ofNat 32 value &&& 0o7777#32 then
    some ⟨⟨BitVec.ofNat 32 value⟩⟩
  else none

/- The rights that the bits of a mode are. -/
def owner (this : FileMode) : Triad where
  read := this.raw.getLsbD 8
  write := this.raw.getLsbD 7
  exec := this.raw.getLsbD 6
  special := this.raw.getLsbD 11

def group (this : FileMode) : Triad where
  read := this.raw.getLsbD 5
  write := this.raw.getLsbD 4
  exec := this.raw.getLsbD 3
  special := this.raw.getLsbD 10

def others (this : FileMode) : Triad where
  read := this.raw.getLsbD 2
  write := this.raw.getLsbD 1
  exec := this.raw.getLsbD 0
  special := this.raw.getLsbD 9

theorem rights_eq
    (this : FileMode) {r w x s : Nat}
    (hR : r < 32) (hW : w < 32) (hX : x < 32) (hS : s < 32)
    (set unset : Byte) :
    this.rights (1#32 <<< r) (1#32 <<< w) (1#32 <<< x)
        (1#32 <<< s) set unset =
      .ok
        (Triad.text
          ⟨this.raw.getLsbD r, this.raw.getLsbD w,
            this.raw.getLsbD x, this.raw.getLsbD s⟩
          set unset) := by
  simp only [rights, BitMask.test_one_shiftLeft _ hR,
    BitMask.test_one_shiftLeft _ hW,
    BitMask.test_one_shiftLeft _ hX,
    BitMask.test_one_shiftLeft _ hS]
  rfl

theorem symbolic_eq (this : FileMode) :
    this.symbolic =
      .ok
        (this.owner.text 115 83 ++ this.group.text 115 83 ++
          this.others.text 116 84) := by
  have hOwner :
      this.rights FileModeBit.ownerRead
          FileModeBit.ownerWrite FileModeBit.ownerExec
          FileModeBit.setUID 115 83 =
        .ok (this.owner.text 115 83) :=
    @this.rights_eq 8 7 6 11 (by decide) (by decide)
      (by decide) (by decide) 115 83
  have hGroup :
      this.rights FileModeBit.groupRead
          FileModeBit.groupWrite FileModeBit.groupExec
          FileModeBit.setGID 115 83 =
        .ok (this.group.text 115 83) :=
    @this.rights_eq 5 4 3 10 (by decide) (by decide)
      (by decide) (by decide) 115 83
  have hOthers :
      this.rights FileModeBit.otherRead
          FileModeBit.otherWrite FileModeBit.otherExec
          FileModeBit.sticky 116 84 =
        .ok (this.others.text 116 84) :=
    @this.rights_eq 2 1 0 9 (by decide) (by decide)
      (by decide) (by decide) 116 84
  simp only [symbolic, hOwner, hGroup, hOthers]
  rfl

theorem letters_id : Letters 115 83 := by
  constructor <;> decide

theorem letters_sticky : Letters 116 84 := by
  constructor <;> decide

/- The texts with a meaning are those of three classes. -/
theorem parseSymbolic_iff (text : Str) (bits : BitVec 32) :
    parseSymbolic text = some bits ↔
      ∃ owner group others,
        text =
            Triad.text owner 115 83 ++
              Triad.text group 115 83 ++
              Triad.text others 116 84 ∧
          permissions owner group others = bits := by
  constructor
  · intro hParse
    simp only [parseSymbolic, Option.bind_eq_bind,
      Option.bind_eq_some_iff] at hParse
    rcases hParse with
      ⟨owner, hOwner, group, hGroup, others, hOthers, hBits⟩
    rw [parse_iff letters_id] at hOwner hGroup
    rw [parse_iff letters_sticky] at hOthers
    refine
      ⟨owner, group, others, ?_, Option.some.inj hBits⟩
    rw [← hOwner, ← hGroup, ← hOthers, List.append_assoc,
      ← List.drop_drop (i := 3) (j := 3),
      List.take_append_drop, List.take_append_drop]
  · rintro ⟨owner, group, others, rfl, rfl⟩
    have hOwner :=
      (parse_iff letters_id _ owner).mpr rfl
    have hGroup :=
      (parse_iff letters_id _ group).mpr rfl
    have hOthers :=
      (parse_iff letters_sticky _ others).mpr rfl
    simp only [Triad.text] at hOwner hGroup hOthers
    simp [parseSymbolic, Triad.text, hOwner, hGroup,
      hOthers]

theorem getLsbD_onOff
    (on : Bool) (bits : BitVec 32) (i : Nat) :
    (if on then bits else 0).getLsbD i =
      (on && bits.getLsbD i) := by
  cases on <;> simp

/- The bits of a mode say which rights it is made of. -/
theorem classes_permissions (owner group others : Triad) :
    let mode : FileMode :=
      ⟨⟨permissions owner group others⟩⟩
    mode.owner = owner ∧ mode.group = group ∧
      mode.others = others := by
  simp only [FileMode.owner, FileMode.group,
    FileMode.others, raw, BitMask.raw, permissions, mask,
    BitVec.getLsbD_or, getLsbD_onOff,
    FileModeBit.ownerRead, FileModeBit.ownerWrite,
    FileModeBit.ownerExec, FileModeBit.setUID,
    FileModeBit.groupRead, FileModeBit.groupWrite,
    FileModeBit.groupExec, FileModeBit.setGID,
    FileModeBit.otherRead, FileModeBit.otherWrite,
    FileModeBit.otherExec, FileModeBit.sticky]
  simp

theorem onOff_eq (bits : BitVec 32) (i : Nat) :
    (if bits.getLsbD i then 1#32 <<< i else 0) =
      bits &&& 1#32 <<< i := by
  have hPower : 1#32 <<< i = BitVec.twoPow 32 i := rfl
  rw [hPower, BitVec.and_twoPow]
  rfl

theorem mask_eq (bits : BitVec 32) (r w x s : Nat) :
    Triad.mask
        ⟨bits.getLsbD r, bits.getLsbD w, bits.getLsbD x,
          bits.getLsbD s⟩
        (1#32 <<< r) (1#32 <<< w) (1#32 <<< x)
        (1#32 <<< s) =
      bits &&&
        (1#32 <<< r ||| 1#32 <<< w ||| 1#32 <<< x |||
          1#32 <<< s) := by
  simp only [mask, onOff_eq,
    ← BitVec.and_or_distrib_left]

theorem permissions_classes (this : FileMode) :
    permissions this.owner this.group this.others =
      this.raw &&& 0o7777#32 := by
  have hOwner := mask_eq this.raw 8 7 6 11
  have hGroup := mask_eq this.raw 5 4 3 10
  have hOthers := mask_eq this.raw 2 1 0 9
  have hAll :
      permissions this.owner this.group this.others =
        this.raw &&& 0o4700#32 ||| this.raw &&& 0o2070#32 |||
          this.raw &&& 0o1007#32 :=
    congrArg₂ (· ||| ·) (congrArg₂ (· ||| ·) hOwner hGroup)
      hOthers
  rw [hAll, ← BitVec.and_or_distrib_left,
    ← BitVec.and_or_distrib_left]
  rfl

theorem symbolic_parse (this : FileMode) (text : Str) :
    this.symbolic = .ok text ↔
      parseSymbolic text = some (this.raw &&& 0o7777#32) := by
  rw [symbolic_eq, parseSymbolic_iff, Except.ok.injEq]
  constructor
  · rintro rfl
    exact ⟨_, _, _, rfl, permissions_classes this⟩
  · rintro ⟨owner, group, others, rfl, hBits⟩
    have hSame :
        permissions owner group others =
          permissions this.owner this.group this.others :=
      hBits.trans (permissions_classes this).symm
    have hThese := classes_permissions owner group others
    rw [hSame] at hThese
    rcases hThese with ⟨hOwner, hGroup, hOthers⟩
    rcases
        classes_permissions this.owner this.group
          this.others with
      ⟨hOwner', hGroup', hOthers'⟩
    rw [← hOwner, ← hGroup, ← hOthers, hOwner', hGroup',
      hOthers']

theorem length_symbolic
    {this : FileMode} {text : Str}
    (hText : this.symbolic = .ok text) :
    text.length = 9 := by
  rw [symbolic_eq, Except.ok.injEq] at hText
  rw [← hText]
  rfl

/-
  The symbolic text of a mode is the text that means its
  permissions, and the only one. What is formatted tells
  the whole mode, with the bits that the permissions leave
  out, and its two parts agree.
-/
theorem texts_parsed (this : FileMode) :
    (∀ text,
      this.symbolic = .ok text ↔
        parseSymbolic text =
          some (this.raw &&& 0o7777#32)) ∧
      ∃ text,
        this.format = .ok text ∧
          parseFormat text = some this := by
  refine ⟨this.symbolic_parse, ?_⟩
  have hSymbolic := symbolic_eq this
  generalize
    this.owner.text 115 83 ++ this.group.text 115 83 ++
      this.others.text 116 84 = front at hSymbolic
  have hLength := length_symbolic hSymbolic
  have hLow := (this.symbolic_parse front).mp hSymbolic
  have hDigits :=
    parse_padded (show 2 ≤ 8 by decide)
      (show 8 ≤ 16 by decide) false 4 this.raw.toNat
  have hFormat :
      this.format =
        .ok
          (front ++ str " (0o" ++
            padded 8 false 4 this.raw.toNat ++ str ")") := by
    unfold format
    rw [hSymbolic]
    rfl
  refine ⟨_, hFormat, ?_⟩
  generalize padded 8 false 4 this.raw.toNat = digits
    at hDigits
  have hFront :
      (front ++ str " (0o" ++ digits ++ str ")").take 9 =
        front := by
    rw [List.append_assoc, List.append_assoc, ← hLength,
      List.take_left]
  have hIntro : (front ++ str " (0o").length = 13 := by
    rw [List.length_append, hLength]
    rfl
  have hBack :
      ((front ++ str " (0o" ++ digits ++ str ")").drop
        13).dropLast = digits := by
    rw [List.append_assoc _ digits, ← hIntro,
      List.drop_left]
    exact List.dropLast_concat
  have hValue :
      BitVec.ofNat 32 this.raw.toNat = this.raw := by
    rw [BitVec.ofNat_toNat, BitVec.setWidth_eq]
  simp only [parseFormat, hFront, hBack, hLow, hDigits,
    hValue, Option.bind_eq_bind, Option.bind_some, if_true]
  rfl

end FileMode

end Cosmos
