import LiveExec32.Guest.Memory

/-! # Addresses in a loaded image

Crash reports name the guest's frames by the symbols of the images in guest memory. An image was
linked for a preferred address and lies at another one; the slide is the difference. The code
computes it in 32 bits and adds it in 64 bits, so that the sum is right for an image above its
preferred address, and `2 ^ 32` too large for one below it.

The three loops over the load commands walk alike and differ only in what they look for: `commands`
is what such a walk visits before it ends or meets a malformed command. -/

namespace LiveExec32.Guest

open List

/-! ## The source -/

structure GuestMachOImage where
  ncmds : ℕ
  /-- The size of `loadCommands`. -/
  sizeofcmds : ℕ
  loadCommands : Bytes

structure SegmentCommand where
  segname : List UInt8
  vmaddr : ℕ
  vmsize : ℕ
  fileoff : ℕ
  filesize : ℕ
deriving DecidableEq

/-- The file range lies in the segment; its end is computed in 64 bits. -/
def SegmentCommand.holds (segment : SegmentCommand) (fileOffset size : ℕ) : Bool :=
  let requestedEnd := (fileOffset + size) % 2 ^ 64
  fileOffset ≤ requestedEnd && segment.fileoff ≤ fileOffset
    && requestedEnd ≤ segment.fileoff + segment.filesize

structure SymtabCommand where
  symoff : ℕ
  nsyms : ℕ
  stroff : ℕ
  strsize : ℕ

def uint32Max : ℕ := 2 ^ 32 - 1

/-- The bytes of an ASCII string. -/
def ascii (text : String) : List UInt8 := text.toList.map fun c => UInt8.ofNat c.toNat

def pageZeroName : List UInt8 := ascii "__PAGEZERO"

def textName : List UInt8 := ascii "__TEXT"

namespace GuestMachOImage

variable (image : GuestMachOImage)

/-- The cursors of the commands that a loop over the load commands visits. -/
def walk : (rounds cursor : ℕ) → List ℕ
  | 0, _ => []
  | rounds + 1, cursor =>
    let cmdsize := image.loadCommands.word (cursor + 4)
    if image.sizeofcmds < cursor + 8 ∨ cmdsize < 8 ∨ image.sizeofcmds - cursor < cmdsize then []
    else cursor :: walk rounds (cursor + cmdsize)

def commands : List ℕ := image.walk image.ncmds 0

/-- The command at the cursor, if it is of this type and at least this large. -/
def commandAt (type size cursor : ℕ) : Option Bytes :=
  if image.loadCommands.word cursor = type ∧ size ≤ image.loadCommands.word (cursor + 4) then
    some (image.loadCommands.shift cursor)
  else none

/-- `strncmp` compares a name up to its first zero byte. -/
def segments : List SegmentCommand :=
  (image.commands.filterMap (image.commandAt 1 56)).map fun command =>
    { segname := (command.slice 8 16).takeWhile (· != 0)
      vmaddr := command.word 24
      vmsize := command.word 28
      fileoff := command.word 32
      filesize := command.word 36 }

def symtab : Option SymtabCommand :=
  (image.commands.filterMap (image.commandAt 2 24)).head?.map fun command =>
    ⟨command.word 8, command.word 12, command.word 16, command.word 20⟩

def guestImageSlide (start : ℕ) : ℕ :=
  match image.segments.find? (·.segname != pageZeroName) with
  | some segment => (start + 2 ^ 32 - segment.vmaddr) % 2 ^ 32
  | none => start

def guestImageTextRange (start : ℕ) : Option (ℕ × ℕ) :=
  match image.segments.find? (·.segname == textName) with
  | none => none
  | some segment =>
    let textStart := image.guestImageSlide start + segment.vmaddr
    let textEnd := textStart + segment.vmsize
    if uint32Max < textStart ∨ uint32Max < textEnd ∨ textEnd ≤ textStart then none
    else some (textStart, textEnd)

def guestFileOffsetAddress (slide fileOffset size : ℕ) : Option ℕ :=
  match image.segments.find? (·.holds fileOffset size) with
  | none => none
  | some segment =>
    let resolved := slide + segment.vmaddr + (fileOffset - segment.fileoff)
    if resolved ≤ uint32Max ∧ size ≤ uint32Max - resolved + 1 then some resolved else none

/-- The symbol table and the resolved addresses of its entries and its strings. -/
def symbolTable (slide : ℕ) : Option (SymtabCommand × ℕ × ℕ) := do
  let table ← image.symtab
  if 256 * 1024 < table.nsyms then none
  let symbols ← image.guestFileOffsetAddress slide table.symoff (table.nsyms * 12)
  let strings ← image.guestFileOffsetAddress slide table.stroff table.strsize
  if validRange symbols (table.nsyms * 12)
      && validRange strings table.strsize then
    some (table, symbols, strings)
  else none

end GuestMachOImage

/-- What `read_guest_memory_with_permissions` and `CopyGuestCStringForCrash` find in guest memory.
    -/
structure Reader where
  read : (address size : ℕ) → Option Bytes
  cString : (address maximumLength : ℕ) → List UInt8

namespace Reader

variable (reader : Reader)

def readGuestMachOImage (start : ℕ) : Option GuestMachOImage := do
  let header ← reader.read start 28
  let sizeofcmds := header.word 20
  if header.word 0 ≠ 0xfeedface ∨ 4096 < header.word 16 ∨ 1024 * 1024 < sizeofcmds then none
  if sizeofcmds = 0 then some ⟨header.word 16, 0, fun _ => 0⟩
  else
    let commands ← reader.read (start + 28) sizeofcmds
    some ⟨header.word 16, sizeofcmds, commands⟩

/-- The entries of the symbol table, up to the first that cannot be read. -/
def entries (symbols : ℕ) : (rounds index : ℕ) → List Bytes
  | 0, _ => []
  | rounds + 1, index =>
    match reader.read (symbols + index * 12) 12 with
    | none => []
    | some entry => entry :: entries symbols rounds (index + 1)

/-- The checks on an `nlist`: a symbol of a section, not for a debugger, with a name and a value. -/
def isSymbol (strsize : ℕ) (entry : Bytes) : Bool :=
  entry 4 &&& 0xe0 == 0 && entry 4 &&& 0x0e == 0x0e && entry.word 0 != 0
    && entry.word 0 < strsize && entry.word 8 != 0

def symbolName (strings strsize : ℕ) (entry : Bytes) : List UInt8 :=
  reader.cString ((strings + entry.word 0) % 2 ^ 32) (min 1024 (strsize - entry.word 0))

/-- What the loop of `load_symbols_for_image` reports for one entry. -/
def symbol (slide start finish strings strsize : ℕ) (entry : Bytes) : Option (ℕ × List UInt8) :=
  let resolvedAddress := entry.word 8 + slide
  let name := reader.symbolName strings strsize entry
  if isSymbol strsize entry ∧ start ≤ resolvedAddress ∧ resolvedAddress < finish ∧ name ≠ [] then
    some (resolvedAddress % 2 ^ 32, name)
  else none

/-- The calls that `load_symbols_for_image` makes of its iterator. -/
def loadSymbolsForImage (start finish : ℕ) : List (ℕ × List UInt8) :=
  match reader.readGuestMachOImage start with
  | none => []
  | some image =>
    let slide := image.guestImageSlide start
    (start, ascii "(unknown symbol)") ::
      match image.symbolTable slide with
      | none => []
      | some (table, symbols, strings) =>
        (reader.entries symbols table.nsyms 0).filterMap
          (reader.symbol slide start finish strings table.strsize)

end Reader

/-! ## The slide -/

/-- An image at `start` whose first segment other than `__PAGEZERO` is this `__TEXT` segment, which
    ends in the address space. -/
structure LoadedAt (image : GuestMachOImage) (text : SegmentCommand) (start : ℕ) : Prop where
  first : image.segments.find? (·.segname != pageZeroName) = some text
  name : text.segname = textName
  nonempty : 0 < text.vmsize
  fits : start + text.vmsize ≤ uint32Max

variable {image : GuestMachOImage} {text : SegmentCommand} {start : ℕ}

theorem LoadedAt.vmaddr_lt (h : LoadedAt image text start) : text.vmaddr < 2 ^ 32 := by
  obtain ⟨command, -, rfl⟩ := mem_map.mp (mem_of_find?_eq_some h.first)
  exact Bytes.word_lt command 24

/-- Below the preferred address the slide is `2 ^ 32` too large. -/
theorem LoadedAt.slide (h : LoadedAt image text start) : image.guestImageSlide start + text.vmaddr
      = if text.vmaddr ≤ start then start else start + 2 ^ 32 := by
  have hpreferred := h.vmaddr_lt
  have hfits := h.fits
  rw [uint32Max] at hfits
  rw [GuestMachOImage.guestImageSlide, h.first]
  dsimp only
  split <;> omega

/-- The segments before the first one that is not `__PAGEZERO` are not `__TEXT`. -/
theorem LoadedAt.find_text (h : LoadedAt image text start) :
    image.segments.find? (·.segname == textName) = some text := by
  obtain ⟨-, before, after, heq, hbefore⟩ := find?_eq_some_iff_append.mp h.first
  refine find?_eq_some_iff_append.mpr ⟨by simp [h.name], before, after, heq, fun x hx => ?_⟩
  have hzero : x.segname = pageZeroName := by simpa using hbefore x hx
  rw [hzero]
  decide

/-- The file range lies in a segment, and in the address space when the image is at `start`: it
    starts at `loaded`, which is the preferred address plus the difference. -/
def Loads (image : GuestMachOImage) (text : SegmentCommand) (start fileOffset size loaded : ℕ) :
    Prop :=
  ∃ segment, image.segments.find? (·.holds fileOffset size) = some segment
    ∧ (loaded : ℤ) = segment.vmaddr + (fileOffset - segment.fileoff) + (start - text.vmaddr)
    ∧ loaded < 2 ^ 32 ∧ loaded + size ≤ 2 ^ 32

/-- What should be reported of an entry of the symbol table: a symbol that lies in the image, at its
    preferred address plus the difference. -/
def Reader.loadedSymbol (reader : Reader) (text : SegmentCommand)
    (start finish strings strsize : ℕ) (entry : Bytes) : Option (ℕ × List UInt8) :=
  let loaded : ℤ := entry.word 8 + (start - text.vmaddr)
  let name := reader.symbolName strings strsize entry
  if isSymbol strsize entry ∧ start ≤ loaded ∧ loaded < finish ∧ name ≠ [] then
    some (loaded.toNat, name)
  else none

theorem LoadedAt.textRange_iff (h : LoadedAt image text start) :
    image.guestImageTextRange start = some (start, start + text.vmsize) ↔ text.vmaddr ≤ start := by
  have hfits := h.fits
  have hnonempty := h.nonempty
  have hmax : uint32Max = 2 ^ 32 - 1 := rfl
  rw [GuestMachOImage.guestImageTextRange, h.find_text]
  dsimp only
  rw [h.slide]
  split <;> split <;> simp <;> omega

/-- A file range is found where it lies; below the preferred address it is not found. -/
theorem LoadedAt.fileOffsetAddress (h : LoadedAt image text start) {fileOffset size loaded : ℕ}
    (hloads : Loads image text start fileOffset size loaded) :
    image.guestFileOffsetAddress (image.guestImageSlide start) fileOffset size
      = if text.vmaddr ≤ start then some loaded else none := by
  obtain ⟨segment, hfind, hloaded, hbelow, hend⟩ := hloads
  have hslide := h.slide
  have hmax : uint32Max = 2 ^ 32 - 1 := rfl
  have hholds : segment.fileoff ≤ fileOffset := by
    have := find?_some hfind
    simp only [SegmentCommand.holds, Bool.and_eq_true, decide_eq_true_eq] at this
    exact this.1.2
  rw [GuestMachOImage.guestFileOffsetAddress, hfind]
  dsimp only
  split at hslide
  · rw [if_pos (by omega), if_pos (by omega), Option.some.injEq]
    omega
  · rw [if_neg (by omega), if_neg (by omega)]

theorem LoadedAt.symbol_eq (h : LoadedAt image text start) (reader : Reader)
    (habove : text.vmaddr ≤ start) {finish : ℕ} (hfinish : finish < 2 ^ 32) (strings strsize : ℕ) :
    reader.symbol (image.guestImageSlide start) start finish strings strsize
      = reader.loadedSymbol text start finish strings strsize := by
  have hslide := h.slide
  rw [if_pos habove] at hslide
  funext entry
  have hloaded : (entry.word 8 + (start - text.vmaddr) : ℤ)
      = (entry.word 8 + image.guestImageSlide start : ℕ) := by omega
  simp only [Reader.symbol, Reader.loadedSymbol, hloaded, Nat.cast_le, Nat.cast_lt,
    Int.toNat_natCast]
  split
  · next hreported => rw [Nat.mod_eq_of_lt (hreported.2.2.1.trans hfinish)]
  · rfl

/-- **The address arithmetic is right exactly above the preferred address.** For an image loaded at
    `start`, the text range and each file range are found where they lie if and only if the image
    lies at or above its preferred address. Of an image whose symbol table lies in its segments
    `load_symbols_for_image` reports the symbols that should be reported under the same condition,
    if the table is not too large; and otherwise none. -/
theorem LoadedAt.resolves_iff (h : LoadedAt image text start) :
    (image.guestImageTextRange start = some (start, start + text.vmsize) ↔ text.vmaddr ≤ start)
      ∧ (∀ fileOffset size loaded, Loads image text start fileOffset size loaded →
        (image.guestFileOffsetAddress (image.guestImageSlide start) fileOffset size = some loaded
          ↔ text.vmaddr ≤ start))
      ∧ ∀ (reader : Reader) finish table symbols strings, finish < 2 ^ 32 →
        reader.readGuestMachOImage start = some image → image.symtab = some table →
        Loads image text start table.symoff (table.nsyms * 12) symbols →
        Loads image text start table.stroff table.strsize strings →
        reader.loadSymbolsForImage start finish = (start, ascii "(unknown symbol)") ::
          if text.vmaddr ≤ start ∧ table.nsyms ≤ 256 * 1024 then
            (reader.entries symbols table.nsyms 0).filterMap
              (reader.loadedSymbol text start finish strings table.strsize)
          else [] := by
  refine ⟨h.textRange_iff, fun fileOffset size loaded hloads => ?_, ?_⟩
  · rw [h.fileOffsetAddress hloads]
    simp
  · intro reader finish table symbols strings hfinish hread htable hsymbols hstrings
    simp only [Reader.loadSymbolsForImage, hread, GuestMachOImage.symbolTable, htable,
      Option.bind_eq_bind, Option.bind_some, h.fileOffsetAddress hsymbols,
      h.fileOffsetAddress hstrings]
    obtain ⟨-, -, -, hbelow, hend⟩ := hsymbols
    obtain ⟨-, -, -, hbelow', hend'⟩ := hstrings
    have hvalid : ∀ {address size : ℕ}, address < 2 ^ 32 → address + size ≤ 2 ^ 32 →
        validRange address size = true := by
      simp only [validRange, Bool.and_eq_true, decide_eq_true_eq]
      omega
    by_cases hlarge : 256 * 1024 < table.nsyms
    · simp [hlarge, Nat.not_le.2 hlarge]
    by_cases habove : text.vmaddr ≤ start
    · simp [hlarge, habove, hvalid hbelow hend, hvalid hbelow' hend',
        Nat.not_lt.1 hlarge, h.symbol_eq reader habove hfinish]
    · simp [hlarge, habove]

/-- An image that was linked for `0x4000`, with one segment. -/
def imageOfText : GuestMachOImage where
  ncmds := 1
  sizeofcmds := 56
  loadCommands i :=
    (Bytes.encodeWords [1, 56] ++ textName ++ replicate 10 0
      ++ Bytes.encodeWords [0x4000, 0x1000, 0, 0x1000, 5, 5, 0, 0]).getD i 0

theorem LoadedAt.resolves_iff_imageOfText :
    imageOfText.guestImageTextRange 0x5000 = some (0x5000, 0x6000) := by
  have hloaded : LoadedAt imageOfText ⟨textName, 0x4000, 0x1000, 0, 0x1000⟩ 0x5000 :=
    ⟨by decide +kernel, rfl, by decide, by decide⟩
  exact hloaded.resolves_iff.1.mpr (by decide)

/-- Below its preferred address the image has no text range. -/
theorem imageOfText_below :
    LoadedAt imageOfText ⟨textName, 0x4000, 0x1000, 0, 0x1000⟩ 0x1000
      ∧ imageOfText.guestImageTextRange 0x1000 = none :=
  ⟨⟨by decide +kernel, rfl, by decide, by decide⟩, by decide +kernel⟩

end LiveExec32.Guest
