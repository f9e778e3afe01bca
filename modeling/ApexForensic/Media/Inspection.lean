import ApexForensic.Domain.Errors
import ApexForensic.Support.BitPacking
import ApexForensic.Support.BreakLoop

/-!
# Bit planes of an image

`ImageInspectionService` reads one bit of the chosen channels of each pixel,
row by row from a start pixel, and packs the bits into bytes up to a limit.
The bytes are those of the bits in that order, and pages of a limit that falls
on a pixel boundary are the pieces of one extraction.
-/

namespace ApexForensic.Media

open ApexForensic.Support ApexForensic.Domain

variable {i pixelOffset position : ℕ}

def mediaError (code : String) : PyError :=
  .apex
    { code := code
      messageKey := codeMessageKey code
      developerMessage := none
      target := none
      retryable := false
      details := [] }

inductive Channel where
  | red
  | green
  | blue
  | alpha
  deriving DecidableEq, Repr

/-- `"RGBA".index(channel)` -/
def Channel.index : Channel → Fin 4
  | red => 0
  | green => 1
  | blue => 2
  | alpha => 3

inductive BitOrder where
  | msbFirst
  | lsbFirst
  deriving DecidableEq, Repr

/-- `7 - count if bit_order == "MSB_FIRST" else count` -/
def BitOrder.place : BitOrder → ℕ → ℕ
  | msbFirst, count => 7 - count
  | lsbFirst, count => count

abbrev Pixel := Vector UInt8 4

/-- An image converted to four channels of eight bits. -/
structure Image where
  width : ℕ
  height : ℕ
  rows : List (List Pixel)
  length_rows : rows.length = height
  length_row : ∀ row ∈ rows, row.length = width

def Image.getpixel (image : Image) (x y : ℕ) : Except PyError Pixel :=
  match image.rows[y]?.bind fun row => row[x]? with
  | some pixel => .ok pixel
  | none => .error (.builtin .indexError "image index out of range")

def Image.totalPixels (image : Image) : ℕ := image.width * image.height

/-- `values`, `accumulator`, `count` and `consumed` of the loops. -/
structure Packing where
  values : List UInt8
  accumulator : ℕ
  count : ℕ
  consumed : ℕ

/-- `bytearray.append` -/
def appendByte (values : List UInt8) (value : ℕ) :
    Except PyError (List UInt8) :=
  if value < 256 then .ok (values ++ [UInt8.ofNat value])
  else .error (.builtin .valueError "byte must be in range(0, 256)")

def packBit (bitOrder : BitOrder) (s : Packing) (value : ℕ) :
    Except PyError Packing :=
  let accumulator := s.accumulator ||| value <<< bitOrder.place s.count
  let count := s.count + 1
  let consumed := s.consumed + 1
  if count = 8 then do
    let values ← appendByte s.values accumulator
    .ok { values := values, accumulator := 0, count := 0, consumed := consumed }
  else
    .ok
      { values := s.values, accumulator := accumulator, count := count
        consumed := consumed }

/-- The body of the loop over the positions. -/
def packPixel (image : Image) (indices : List (Fin 4)) (bit : ℕ)
    (bitOrder : BitOrder) (wantedBits : ℕ) (s : Packing) (position : ℕ) :
    Except PyError Packing := do
  let pixel ← image.getpixel (position % image.width) (position / image.width)
  breakLoop (fun s => decide (wantedBits ≤ s.consumed))
    (fun s index => packBit bitOrder s ((pixel[index].toNat >>> bit) &&& 1))
    s indices

/-- What the service takes from the Python library: the digest of the bytes and
their text, with invalid sequences replaced. -/
structure MediaPlatform where
  sha256 : List UInt8 → String
  decodeUtf8 : List UInt8 → String

/-- The result of an extraction; `data` stands for its `hex`. -/
structure Extraction (π : Type) where
  provenance : π
  channels : List Channel
  bit : ℕ
  bitOrder : BitOrder
  pixelOffset : ℕ
  byteLimit : ℕ
  returnedBytes : ℕ
  availableBytes : ℕ
  hasMore : Bool
  unusedTailBits : ℕ
  outputSha256 : String
  data : List UInt8
  text : String

variable {π : Type}

def extract (P : MediaPlatform) (pixels : Image) (provenance : π)
    (channels : List Channel) (bit : ℕ) (bitOrder : BitOrder)
    (pixelOffset byteLimit : ℕ) : Except PyError (Extraction π) := do
  let totalPixels := pixels.totalPixels
  if totalPixels ≤ pixelOffset then
    .error (mediaError "MEDIA_OFFSET_OUT_OF_RANGE")
  let indices := channels.map Channel.index
  let availableBits := (totalPixels - pixelOffset) * indices.length
  let wantedBits := min (byteLimit * 8) (availableBits / 8 * 8)
  let packing ← breakLoop (fun s => decide (wantedBits ≤ s.consumed))
    (packPixel pixels indices bit bitOrder wantedBits)
    { values := [], accumulator := 0, count := 0, consumed := 0 }
    (List.range' pixelOffset (totalPixels - pixelOffset))
  let data := packing.values
  .ok
    { provenance := provenance
      channels := channels
      bit := bit
      bitOrder := bitOrder
      pixelOffset := pixelOffset
      byteLimit := byteLimit
      returnedBytes := data.length
      availableBytes := availableBits / 8
      hasMore := decide (data.length < availableBits / 8)
      unusedTailBits := availableBits % 8
      outputSha256 := P.sha256 data
      data := data
      text := P.decodeUtf8 data }

/-- The chosen bits of the pixels from a start pixel, row by row, each pixel's
in the order of the channels. -/
def bitSequence (image : Image) (channels : List Channel)
    (bit pixelOffset : ℕ) : List Bool :=
  (image.rows.flatten.drop pixelOffset).flatMap fun pixel =>
    channels.map fun channel => pixel[channel.index].toNat.testBit bit

/-- The bytes of a run of extractions, each from where the one before it
stopped, until one says that there is no more. -/
inductive Paged (extractAt : ℕ → Except PyError (Extraction π)) (advance : ℕ) :
    ℕ → List UInt8 → Prop
  | last {pixelOffset : ℕ} {page : Extraction π}
      (hpage : extractAt pixelOffset = .ok page)
      (hmore : page.hasMore = false) :
      Paged extractAt advance pixelOffset page.data
  | more {pixelOffset : ℕ} {page : Extraction π} {rest : List UInt8}
      (hpage : extractAt pixelOffset = .ok page)
      (hmore : page.hasMore = true)
      (hrest : Paged extractAt advance (pixelOffset + advance) rest) :
      Paged extractAt advance pixelOffset (page.data ++ rest)

/-! ## The state of the loops -/

theorem BitOrder.place_lt (order : BitOrder) (h : i < 8) :
    order.place i < 8 := by
  cases order with
  | msbFirst => exact Nat.lt_of_le_of_lt (Nat.sub_le 7 i) (by decide)
  | lsbFirst => exact h

theorem BitOrder.place_inj (order : BitOrder) {j : ℕ} (hi : i < 8) (hj : j < 8)
    (h : order.place i = order.place j) : i = j := by
  cases order with
  | msbFirst =>
      change 7 - i = 7 - j at h
      omega
  | lsbFirst => exact h

/-- The loops' state after some bits. -/
def Packing.after (order : BitOrder) (bits : List Bool) : Packing :=
  { values := packed order.place bits
    accumulator := placedBits order.place (unpacked bits)
    count := bits.length % 8
    consumed := bits.length }

theorem packBit_after (order : BitOrder) (bits : List Bool) (bit : Bool) :
    packBit order (Packing.after order bits) bit.toNat =
      .ok (Packing.after order (bits ++ [bit])) := by
  have haccumulator : (Packing.after order bits).accumulator |||
      bit.toNat <<< order.place (bits.length % 8) =
        placedBits order.place (unpacked bits ++ [bit]) := by
    rw [placedBits_concat, length_unpacked]
    rfl
  have hcountOf : (Packing.after order bits).count = bits.length % 8 := rfl
  simp only [packBit, hcountOf, haccumulator]
  by_cases h : bits.length % 8 = 7
  · obtain ⟨hvalues, hwaiting⟩ :=
      packed_concat_of_eq order.place h bit
    have hlt : placedBits order.place (unpacked bits ++ [bit]) < 256 := by
      apply placedBits_lt
      intro i hi
      rw [List.length_append, length_unpacked, h] at hi
      exact order.place_lt hi
    rw [if_pos (by omega), appendByte, if_pos hlt, ok_bind]
    simp only [Packing.after, hvalues, hwaiting, List.length_append,
      List.length_singleton]
    congr 2
    omega
  · have hlt : bits.length % 8 < 7 := by omega
    obtain ⟨hvalues, hwaiting⟩ := packed_concat_of_lt order.place hlt bit
    rw [if_neg (by omega)]
    simp only [Packing.after, hvalues, hwaiting, List.length_append,
      List.length_singleton]
    congr 2
    omega

/-! ## Pixels in their order -/

theorem getElem?_flatten_of_rows {α : Type} {width : ℕ} {rows : List (List α)}
    (h : ∀ row ∈ rows, row.length = width)
    (hlt : position < width * rows.length) :
    rows.flatten[position]? =
      rows[position / width]?.bind fun row => row[position % width]? := by
  have hwidth : 0 < width := by
    rcases Nat.eq_zero_or_pos width with rfl | hpos
    · rw [Nat.zero_mul] at hlt
      exact absurd hlt (Nat.not_lt_zero _)
    · exact hpos
  induction rows generalizing position with
  | nil => exact absurd hlt (Nat.not_lt_zero _)
  | cons row rows ih =>
      obtain ⟨hrow, hrows⟩ := List.forall_mem_cons.mp h
      rw [List.flatten_cons, List.getElem?_append, hrow]
      by_cases hfirst : position < width
      · rw [if_pos hfirst, Nat.div_eq_of_lt hfirst, Nat.mod_eq_of_lt hfirst]
        rfl
      · have hle := Nat.le_of_not_lt hfirst
        rw [List.length_cons, Nat.mul_succ] at hlt
        rw [if_neg hfirst, ih hrows (by omega),
          Nat.div_eq_sub_div hwidth hle, List.getElem?_cons_succ,
          ← Nat.mod_eq_sub_mod hle]

theorem Image.length_flatten (image : Image) :
    image.rows.flatten.length = image.totalPixels := by
  have hsum : ∀ rows : List (List Pixel),
      (∀ row ∈ rows, row.length = image.width) →
        rows.flatten.length = image.width * rows.length := by
    intro rows h
    induction rows with
    | nil => rfl
    | cons row rows ih =>
        obtain ⟨hrow, hrows⟩ := List.forall_mem_cons.mp h
        rw [List.flatten_cons, List.length_append, hrow, ih hrows,
          List.length_cons, Nat.mul_succ, Nat.add_comm]
  rw [hsum _ image.length_row, image.length_rows, Image.totalPixels]

theorem Image.getpixel_position (image : Image)
    (h : position < image.totalPixels) {pixel : Pixel}
    (hpixel : image.rows.flatten[position]? = some pixel) :
    image.getpixel (position % image.width) (position / image.width) =
      .ok pixel := by
  have hlt : position < image.width * image.rows.length := by
    rwa [image.length_rows]
  rw [Image.getpixel, ← getElem?_flatten_of_rows image.length_row hlt, hpixel]

/-! ## What the loops extract -/

/-- The chosen bits of the pixel at a position. -/
def positionBits (image : Image) (channels : List Channel) (bit position : ℕ) :
    List Bool :=
  (image.rows.flatten[position]?.toList).flatMap fun pixel =>
    channels.map fun channel => pixel[channel.index].toNat.testBit bit

theorem shiftRight_and_one (n bit : ℕ) :
    (n >>> bit) &&& 1 = (n.testBit bit).toNat := by
  rw [Nat.toNat_testBit, Nat.and_one_is_mod, Nat.shiftRight_eq_div_pow]

theorem packPixel_after (image : Image) (channels : List Channel) (bit : ℕ)
    (order : BitOrder) {wantedBits : ℕ}
    (hposition : position < image.totalPixels) (seen : List Bool) :
    packPixel image (channels.map Channel.index) bit order wantedBits
        (Packing.after order seen) position =
      .ok (Packing.after order (seen ++
        (positionBits image channels bit position).take
          (wantedBits - seen.length))) := by
  have hin : position < image.rows.flatten.length := by
    rwa [image.length_flatten]
  have hpixel := List.getElem?_eq_getElem hin
  generalize image.rows.flatten[position] = pixel at hpixel
  rw [packPixel, image.getpixel_position hposition hpixel, ok_bind,
    breakLoop_eq_of_quota (Packing.after order)
      (fun index : Fin 4 => [pixel[index].toNat.testBit bit]) wantedBits]
  · rw [positionBits, hpixel, Option.toList_some,
      List.flatMap_singleton, List.flatMap_map, List.map_eq_flatMap]
  · intro seen
    rfl
  · intro index _ seen hlt
    rw [shiftRight_and_one, packBit_after, List.take_of_length_le]
    exact Nat.sub_pos_of_lt hlt

theorem flatMap_range'_getElem? {α : Type} (xs : List α) (k : ℕ) :
    ((List.range' k (xs.length - k)).flatMap fun i => xs[i]?.toList) =
      xs.drop k := by
  generalize hn : xs.length - k = n
  induction n generalizing k with
  | zero => exact (List.drop_eq_nil_of_le (Nat.le_of_sub_eq_zero hn)).symm
  | succ n ih =>
      have hlt : k < xs.length := by omega
      rw [List.range'_succ, List.flatMap_cons, ih (k + 1) (by omega),
        List.getElem?_eq_getElem hlt, Option.toList_some,
        List.drop_eq_getElem_cons hlt]
      rfl

theorem flatMap_positionBits (image : Image) (channels : List Channel)
    (bit pixelOffset : ℕ) :
    (List.range' pixelOffset (image.totalPixels - pixelOffset)).flatMap
        (positionBits image channels bit) =
      bitSequence image channels bit pixelOffset := by
  rw [bitSequence, ← flatMap_range'_getElem?, List.flatMap_assoc,
    image.length_flatten]
  rfl

theorem length_bitSequence (image : Image) (channels : List Channel)
    (bit pixelOffset : ℕ) :
    (bitSequence image channels bit pixelOffset).length =
      (image.totalPixels - pixelOffset) * channels.length := by
  rw [bitSequence, List.length_flatMap]
  simp only [List.length_map, List.map_const', List.length_drop,
    image.length_flatten, List.sum_replicate_nat]

theorem bitSequence_add (image : Image) (channels : List Channel)
    (bit pixelOffset advance : ℕ) :
    bitSequence image channels bit (pixelOffset + advance) =
      (bitSequence image channels bit pixelOffset).drop
        (channels.length * advance) := by
  have hdrop : ∀ pixels : List Pixel,
      ((pixels.drop advance).flatMap fun pixel =>
          channels.map fun channel =>
            pixel[channel.index].toNat.testBit bit) =
        (pixels.flatMap fun pixel => channels.map fun channel =>
          pixel[channel.index].toNat.testBit bit).drop
            (channels.length * advance) := by
    induction advance with
    | zero => intro pixels; rfl
    | succ advance ih =>
        intro pixels
        cases pixels with
        | nil => simp only [List.drop_nil, List.flatMap_nil]
        | cons pixel pixels =>
            rw [List.drop_succ_cons, ih, List.flatMap_cons, Nat.mul_succ,
              Nat.add_comm, ← List.drop_drop, List.drop_left']
            exact List.length_map _
  rw [bitSequence, ← List.drop_drop, hdrop]
  rfl

/-- The page of a bit sequence. -/
def Extraction.ofBits (P : MediaPlatform) (provenance : π)
    (channels : List Channel) (bit : ℕ) (order : BitOrder)
    (pixelOffset byteLimit : ℕ) (bits : List Bool) : Extraction π :=
  let data := packed order.place
    (bits.take (min (8 * byteLimit) (8 * (bits.length / 8))))
  { provenance := provenance
    channels := channels
    bit := bit
    bitOrder := order
    pixelOffset := pixelOffset
    byteLimit := byteLimit
    returnedBytes := data.length
    availableBytes := bits.length / 8
    hasMore := decide (data.length < bits.length / 8)
    unusedTailBits := bits.length % 8
    outputSha256 := P.sha256 data
    data := data
    text := P.decodeUtf8 data }

section Pages

variable (P : MediaPlatform) (provenance : π) (image : Image)
  (channels : List Channel) (bit : ℕ) (order : BitOrder)

theorem extract_of_le (h : image.totalPixels ≤ pixelOffset) (byteLimit : ℕ) :
    extract P image provenance channels bit order pixelOffset byteLimit =
      .error (mediaError "MEDIA_OFFSET_OUT_OF_RANGE") := by
  rw [extract]
  dsimp only
  rw [if_pos h]
  rfl

theorem extract_of_lt (h : pixelOffset < image.totalPixels) (byteLimit : ℕ) :
    extract P image provenance channels bit order pixelOffset byteLimit =
      .ok (Extraction.ofBits P provenance channels bit order pixelOffset
        byteLimit (bitSequence image channels bit pixelOffset)) := by
  have hempty : ({ values := [], accumulator := 0, count := 0, consumed := 0 } :
      Packing) = Packing.after order [] := rfl
  have hloop : ∀ wantedBits, breakLoop
      (fun s : Packing => decide (wantedBits ≤ s.consumed))
      (packPixel image (channels.map Channel.index) bit order wantedBits)
      (Packing.after order [])
      (List.range' pixelOffset (image.totalPixels - pixelOffset)) =
        .ok (Packing.after order
          ((bitSequence image channels bit pixelOffset).take wantedBits)) := by
    intro wantedBits
    rw [breakLoop_eq_of_quota (Packing.after order)
      (positionBits image channels bit) wantedBits]
    · rw [flatMap_positionBits, List.nil_append, List.length_nil, Nat.sub_zero]
    · intro seen
      rfl
    · intro position hposition seen _
      obtain ⟨_, hlt⟩ := List.mem_range'_1.mp hposition
      exact packPixel_after image channels bit order (by omega) seen
  rw [extract]
  dsimp only
  rw [if_neg (Nat.not_le_of_lt h), List.length_map,
    ← length_bitSequence image channels bit, hempty]
  rw [hloop, Extraction.ofBits, Nat.mul_comm 8 byteLimit,
    Nat.mul_comm 8 (_ / 8)]
  rfl

theorem packed_take_page (byteLimit : ℕ) (bits : List Bool) :
    packed order.place (bits.take (min (8 * byteLimit)
        (8 * (bits.length / 8)))) =
      if byteLimit < bits.length / 8 then
        packed order.place (bits.take (8 * byteLimit))
      else packed order.place bits := by
  by_cases h : byteLimit < bits.length / 8
  · rw [if_pos h, Nat.min_eq_left (by omega)]
  · rw [if_neg h, Nat.min_eq_right (by omega), packed_take_whole]

theorem testBit_page {byteLimit : ℕ} {bits : List Bool}
    (hi : i < 8 * (packed order.place (bits.take (min (8 * byteLimit)
      (8 * (bits.length / 8))))).length) :
    (packed order.place (bits.take (min (8 * byteLimit)
        (8 * (bits.length / 8)))))[i / 8]?.map
          (fun byte => byte.toNat.testBit (order.place (i % 8))) =
      bits[i]? := by
  rw [length_packed] at hi
  rw [testBit_packed (fun i hi => order.place_lt hi)
      (fun i hi j hj heq => order.place_inj hi hj heq) hi]
  rw [List.length_take] at hi
  exact List.getElem?_take_of_lt (by omega)

theorem paged_iff {byteLimit advance : ℕ} (hlimit : 1 ≤ byteLimit)
    (hadvance : channels.length * advance = 8 * byteLimit)
    (h : pixelOffset < image.totalPixels) (bytes : List UInt8) :
    Paged (fun pixelOffset => extract P image provenance channels bit order
        pixelOffset byteLimit) advance pixelOffset bytes ↔
      bytes = packed order.place
        (bitSequence image channels bit pixelOffset) := by
  generalize hextract : (fun pixelOffset => extract P image provenance channels
    bit order pixelOffset byteLimit) = extractAt
  have hpageAt : ∀ pixelOffset, pixelOffset < image.totalPixels →
      extractAt pixelOffset = .ok (Extraction.ofBits P provenance channels bit
        order pixelOffset byteLimit
          (bitSequence image channels bit pixelOffset)) := by
    intro pixelOffset h
    rw [← hextract]
    exact extract_of_lt P provenance image channels bit order h byteLimit
  clear hextract
  -- by the number of bits that are left
  generalize hn : (bitSequence image channels bit pixelOffset).length = n
  induction n using Nat.strong_induction_on generalizing pixelOffset bytes with
  | h n ih =>
      have hpage := hpageAt pixelOffset h
      have hdata := packed_take_page order byteLimit
        (bitSequence image channels bit pixelOffset)
      have hnext := bitSequence_add image channels bit pixelOffset advance
      rw [hadvance] at hnext
      generalize bitSequence image channels bit pixelOffset = bits at *
      by_cases hlt : byteLimit < bits.length / 8
      · rw [if_pos hlt] at hdata
        have hlength : (bits.take (8 * byteLimit)).length = 8 * byteLimit := by
          rw [List.length_take]
          omega
        have hmore : (Extraction.ofBits P provenance channels bit order
            pixelOffset byteLimit bits).hasMore = true := by
          rw [Extraction.ofBits, hdata]
          simp only [length_packed, hlength, decide_eq_true_eq]
          omega
        have hnextLength : (bitSequence image channels bit
            (pixelOffset + advance)).length = n - 8 * byteLimit := by
          rw [hnext, List.length_drop, hn]
        have hin : pixelOffset + advance < image.totalPixels := by
          rw [length_bitSequence] at hnextLength
          by_contra hout
          rw [Nat.sub_eq_zero_of_le (Nat.le_of_not_lt hout)] at hnextLength
          omega
        have hrest := fun rest => ih (n - 8 * byteLimit) (by omega) hin rest
          hnextLength
        have hsplit : packed order.place bits =
            packed order.place (bits.take (8 * byteLimit)) ++
              packed order.place (bits.drop (8 * byteLimit)) := by
          rw [← packed_append ⟨_, hlength⟩, List.take_append_drop]
        rw [hsplit, ← hdata, ← hnext]
        constructor
        · intro hrun
          cases hrun with
          | last hpage' hmore' =>
              obtain rfl := Except.ok.inj (hpage.symm.trans hpage')
              exact absurd (hmore'.symm.trans hmore) Bool.false_ne_true
          | more hpage' _ hrest' =>
              obtain rfl := Except.ok.inj (hpage.symm.trans hpage')
              rw [(hrest _).mp hrest']
              rfl
        · rintro rfl
          exact Paged.more hpage hmore ((hrest _).mpr rfl)
      · rw [if_neg hlt] at hdata
        have hmore : (Extraction.ofBits P provenance channels bit order
            pixelOffset byteLimit bits).hasMore = false := by
          rw [Extraction.ofBits, hdata]
          simp only [length_packed, Nat.lt_irrefl, decide_false]
        rw [← hdata]
        constructor
        · intro hrun
          cases hrun with
          | last hpage' _ =>
              obtain rfl := Except.ok.inj (hpage.symm.trans hpage')
              rfl
          | more hpage' hmore' _ =>
              obtain rfl := Except.ok.inj (hpage.symm.trans hpage')
              exact absurd (hmore.symm.trans hmore') Bool.false_ne_true
        · rintro rfl
          exact Paged.last hpage hmore

end Pages

/-! ## The extracted bytes and their pages -/

/-- An extraction gives the first whole bytes of the bits from its start
pixel, up to its limit, and says how many there are; and extractions that go
on where the last one stopped give together what one without a limit does. -/
theorem extract_first_bits_and_paged (P : MediaPlatform) (provenance : π)
    (image : Image) (channels : List Channel) (bit : ℕ) (order : BitOrder)
    (pixelOffset byteLimit : ℕ) :
    let extractAt := fun pixelOffset byteLimit =>
      extract P image provenance channels bit order pixelOffset byteLimit
    let bits := bitSequence image channels bit pixelOffset
    (image.totalPixels ≤ pixelOffset →
        extractAt pixelOffset byteLimit =
          .error (mediaError "MEDIA_OFFSET_OUT_OF_RANGE")) ∧
      (pixelOffset < image.totalPixels →
        (∃ page, extractAt pixelOffset byteLimit = .ok page ∧
          page.data = packed order.place
            (bits.take (min (8 * byteLimit) (8 * (bits.length / 8)))) ∧
          (∀ i < 8 * page.data.length,
            page.data[i / 8]?.map
              (fun byte => byte.toNat.testBit (order.place (i % 8))) =
                bits[i]?) ∧
          page.returnedBytes = page.data.length ∧
          page.availableBytes = bits.length / 8 ∧
          (page.hasMore = true ↔ page.data.length < bits.length / 8) ∧
          page.unusedTailBits = bits.length % 8) ∧
        (channels ≠ [] → 1 ≤ byteLimit → channels.length ∣ 8 * byteLimit →
          ∃ whole,
            (∀ unlimited, bits.length / 8 ≤ unlimited →
              ∃ page, extractAt pixelOffset unlimited = .ok page ∧
                page.data = whole ∧ page.hasMore = false) ∧
            ∀ bytes, Paged (fun pixelOffset => extractAt pixelOffset byteLimit)
                (8 * byteLimit / channels.length) pixelOffset bytes ↔
              bytes = whole)) := by
  dsimp only
  refine ⟨fun h => extract_of_le P provenance image channels bit order h _,
    fun h => ⟨⟨_, extract_of_lt P provenance image channels bit order h _,
      rfl, ?_, rfl, rfl, decide_eq_true_iff, rfl⟩, ?_⟩⟩
  · intro i hi
    exact testBit_page order hi
  intro _ hlimit hdvd
  refine ⟨packed order.place (bitSequence image channels bit pixelOffset),
    ?_, ?_⟩
  · intro unlimited hunlimited
    have hdata := packed_take_page order unlimited
      (bitSequence image channels bit pixelOffset)
    rw [if_neg (Nat.not_lt_of_le hunlimited)] at hdata
    refine ⟨_, extract_of_lt P provenance image channels bit order h _,
      hdata, ?_⟩
    rw [Extraction.ofBits, hdata]
    simp only [length_packed, Nat.lt_irrefl, decide_false]
  · exact paged_iff P provenance image channels bit order hlimit
      (Nat.mul_div_cancel' hdvd) h

/-- Three rows of three pixels whose red and green lowest bits differ from one
pixel to the next. -/
def checkered : Image where
  width := 3
  height := 3
  rows := [[⟨#[1, 0, 0, 255], rfl⟩, ⟨#[0, 1, 0, 255], rfl⟩,
      ⟨#[1, 1, 0, 255], rfl⟩],
    [⟨#[0, 0, 0, 255], rfl⟩, ⟨#[1, 0, 0, 255], rfl⟩, ⟨#[2, 3, 0, 255], rfl⟩],
    [⟨#[1, 1, 0, 255], rfl⟩, ⟨#[0, 0, 0, 255], rfl⟩, ⟨#[1, 0, 0, 255], rfl⟩]]
  length_rows := rfl
  length_row := by decide

/-- Two pages of one byte each, with two bits left over, are the two bytes of
one extraction without a limit. -/
theorem extract_checkered_paged :
    ∃ whole, whole = [0x9C, 0x9C] ∧
      (∃ page, extract ⟨fun _ => "", fun _ => ""⟩ checkered () [.red, .green] 0
          .msbFirst 0 65536 = .ok page ∧ page.data = whole) ∧
      Paged (fun pixelOffset => extract ⟨fun _ => "", fun _ => ""⟩ checkered ()
        [.red, .green] 0 .msbFirst pixelOffset 1) 4 0 whole := by
  obtain ⟨-, h⟩ := extract_first_bits_and_paged ⟨fun _ => "", fun _ => ""⟩ ()
    checkered [.red, .green] 0 .msbFirst 0 1
  obtain ⟨⟨first, -⟩, hpaged⟩ := h (by decide)
  obtain ⟨whole, hwhole, hpages⟩ := hpaged (by decide) (by decide) (by decide)
  obtain ⟨page, hpage, hdata, -⟩ := hwhole 65536 (by decide)
  have hbytes := extract_of_lt ⟨fun _ => "", fun _ => ""⟩ () checkered
    [.red, .green] 0 .msbFirst (show 0 < checkered.totalPixels by decide) 65536
  obtain rfl := Except.ok.inj (hpage.symm.trans hbytes)
  refine ⟨whole, ?_, ⟨_, hpage, hdata⟩, (hpages whole).mpr rfl⟩
  rw [← hdata]
  decide +kernel

end ApexForensic.Media
