import ApexForensic.Domain.Time

/-!
# Reading media formats

The readers of the image and video formats work on the bytes of a file and
raise what their own operations raise.  The boxes of an MP4 file are walked by
a function that calls itself for a container; `frames` is the number of calls
that the recursion limit of Python still has room for.
-/

namespace ApexForensic.Media

/-- The exceptions that the operations of the readers can raise. -/
inductive Fault where
  | valueError (message : String)
  | typeError
  | overflowError
  | recursionError
  deriving DecidableEq

abbrev Bytes := List UInt8

/-- `data[start:stop]` -/
def slice (data : Bytes) (start stop : ℕ) : Bytes :=
  (data.take stop).drop start

/-- `int.from_bytes(raw, "big")` -/
def bigEndian (raw : Bytes) : ℕ :=
  raw.foldl (fun n byte => 256 * n + byte.toNat) 0

/-- The bytes of an ASCII literal. -/
def ascii (text : String) : Bytes :=
  text.toList.map fun c => UInt8.ofNat c.toNat

/-! ## Boxes -/

/-- A box, the range of its content and its own offset and size. -/
structure Box where
  boxType : Bytes
  contentStart : ℕ
  contentEnd : ℕ
  offset : ℕ
  size : ℕ
  deriving DecidableEq

/-- The length of the header of a box and the size it declares. -/
def boxHeader (data : Bytes) (offset stop : ℕ) : Except Fault (ℕ × ℕ) :=
  let size := bigEndian (slice data offset (offset + 4))
  if size = 1 then
    if stop < offset + 16 then
      .error (.valueError "truncated extended MP4 box size")
    else .ok (16, bigEndian (slice data (offset + 8) (offset + 16)))
  else if size = 0 then .ok (8, stop - offset)
  else .ok (8, size)

theorem eight_le_header {data : Bytes} {offset stop header size : ℕ}
    (h : boxHeader data offset stop = .ok (header, size)) : 8 ≤ header := by
  rw [boxHeader] at h
  split_ifs at h <;> cases h <;> omega

/-- The boxes of one level, from an offset on. -/
def iterBoxes (data : Bytes) (stop offset : ℕ) : Except Fault (List Box) :=
  if offset + 8 ≤ stop then
    match _hheader : boxHeader data offset stop with
    | .error fault => .error fault
    | .ok (header, size) =>
        if _hsize : size < header ∨ stop < offset + size then
          .error (.valueError "invalid MP4 box size")
        else do
          let boxes ← iterBoxes data stop (offset + size)
          return {
            boxType := slice data (offset + 4) (offset + 8)
            contentStart := offset + header
            contentEnd := offset + size
            offset
            size } :: boxes
  else .ok []
  termination_by stop - offset
  decreasing_by
    have hheader := eight_le_header (by assumption)
    omega

def containers : List Bytes :=
  ["moov", "trak", "mdia", "minf", "stbl", "edts", "udta"].map ascii

/-- The range in which the boxes of a container stand. -/
def Box.inner? (box : Box) : Option (ℕ × ℕ) :=
  if box.boxType ∈ containers then some (box.contentStart, box.contentEnd)
  else if box.boxType = ascii "meta" ∧
      box.contentStart + 4 ≤ box.contentEnd then
    some (box.contentStart + 4, box.contentEnd)
  else none

/-- What is found in a box. -/
def walkInner (walk : ℕ → ℕ → Except Fault (List Box)) (box : Box) :
    Except Fault (List Box) :=
  match box.inner? with
  | some (start, stop) => walk start stop
  | none => .ok []

/-- Each box of a level, followed by what is found in it. -/
def walkEach (walk : ℕ → ℕ → Except Fault (List Box)) :
    List Box → Except Fault (List Box)
  | [] => .ok []
  | box :: boxes => do
      let nested ← walkInner walk box
      let others ← walkEach walk boxes
      return box :: nested ++ others

/-- `_walk_boxes`; the walk takes a frame, and the list of a level another. -/
def walkBoxes : ℕ → Bytes → ℕ → ℕ → Except Fault (List Box)
  | 0, _, _, _ => .error .recursionError
  | 1, _, _, _ => .error .recursionError
  | frames + 2, data, start, stop => do
      let boxes ← iterBoxes data stop start
      walkEach (walkBoxes (frames + 1) data) boxes

end ApexForensic.Media
