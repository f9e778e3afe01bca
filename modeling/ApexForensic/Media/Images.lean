import ApexForensic.Media.Exif

/-!
# Image metadata

A JPEG file is read segment by segment; of the other formats fixed header
fields are read.  Damage is reported as a warning, and a reader reports it by
`ValueError`.
-/

namespace ApexForensic.Media

/-! ## JPEG -/

/-- The markers without a segment: `RST0` to `RST7`, `SOI` and `EOI`. -/
def isStandalone (marker : UInt8) : Bool :=
  0xD0 ≤ marker && marker ≤ 0xD9

def isFrameHeader (marker : UInt8) : Bool :=
  marker ∈ [0xC0, 0xC1, 0xC2, 0xC3, 0xC5, 0xC6, 0xC7, 0xC9, 0xCA, 0xCB, 0xCD,
    0xCE, 0xCF]

def exifHeader : Bytes := ascii "Exif" ++ [0, 0]

/-- `left or right` of numbers that may be `None`. -/
def intOr (left right : Option ℤ) : Option ℤ :=
  if left = none ∨ left = some 0 then right else left

/-- What a segment adds to the metadata. -/
def readSegment (P : ExifPlatform) (marker : UInt8) (segment : Bytes)
    (metadata : ImageMetadata) : Except Fault ImageMetadata :=
  if isFrameHeader marker then
    if segment.length < 5 then
      .error (.valueError "truncated JPEG SOF segment")
    else
      .ok { metadata with
        height := some (bigEndian (slice segment 1 3))
        width := some (bigEndian (slice segment 3 5)) }
  else if marker = 0xE1 ∧ exifHeader.isPrefixOf segment then do
    let parsed ← parseTiff P (segment.drop 6)
    return { parsed with
      width := intOr metadata.width parsed.width
      height := intOr metadata.height parsed.height }
  else .ok metadata

/-- The loop of `_jpeg_metadata` over `data[offset:]`. -/
def jpegSegments (P : ExifPlatform) (rest : Bytes) (metadata : ImageMetadata) :
    Except Fault ImageMetadata :=
  if rest.length < 4 then .ok metadata
  else
    match rest with
    | [] => .ok metadata
    | byte :: tail =>
        if byte ≠ 0xFF then jpegSegments P tail metadata
        else
          match _hmarker : tail.dropWhile (· = 0xFF) with
          | [] => .ok metadata
          | marker :: after =>
              if isStandalone marker then jpegSegments P after metadata
              else if after.length < 2 then
                .error (.valueError "truncated JPEG segment length")
              else
                let length := bigEndian (after.take 2)
                if length < 2 then
                  .error (.valueError "invalid JPEG segment length")
                else if after.length < length then
                  .error (.valueError "truncated JPEG segment")
                else do
                  let next ←
                    readSegment P marker (slice after 2 length) metadata
                  jpegSegments P (after.drop length) next
  termination_by rest.length
  decreasing_by
    · simp
    all_goals
      have hlength := (List.dropWhile_suffix (l := tail)
        (· = (0xFF : UInt8))).length_le
      rw [_hmarker] at hlength
      simp only [List.length_cons, List.length_drop] at hlength ⊢
      omega

/-- `_jpeg_metadata` -/
def jpegMetadata (P : ExifPlatform) (data : Bytes) :
    Except Fault ImageMetadata :=
  jpegSegments P (data.drop 2) {}

/-! ## The other formats -/

def pngSignature : Bytes :=
  [0x89, 0x50, 0x4E, 0x47, 0x0D, 0x0A, 0x1A, 0x0A]

def pngMetadata (data : Bytes) : Except Fault ImageMetadata :=
  if data.length < 24 ∨ ¬ pngSignature.isPrefixOf data then
    .error (.valueError "truncated PNG header")
  else if slice data 12 16 ≠ ascii "IHDR" then
    .error (.valueError "PNG IHDR chunk is missing")
  else
    .ok {
      width := some (bigEndian (slice data 16 20))
      height := some (bigEndian (slice data 20 24)) }

def gifMetadata (data : Bytes) : Except Fault ImageMetadata :=
  if data.length < 10 ∨ ¬ ((ascii "GIF87a").isPrefixOf data ∨
      (ascii "GIF89a").isPrefixOf data) then
    .error (.valueError "truncated GIF header")
  else
    .ok {
      width := some (Endian.little.unsigned (slice data 6 8))
      height := some (Endian.little.unsigned (slice data 8 10)) }

def bmpMetadata (data : Bytes) : Except Fault ImageMetadata :=
  if data.length < 26 ∨ ¬ (ascii "BM").isPrefixOf data then
    .error (.valueError "truncated BMP header")
  else
    .ok {
      width := some (unpackI32 data 18 .little)
      height := some |unpackI32 data 22 .little| }

def webpMetadata (data : Bytes) : ImageMetadata :=
  if 30 ≤ data.length ∧ slice data 12 16 = ascii "VP8X" then
    { width := some (Endian.little.unsigned (slice data 24 27 ++ [0]) + 1)
      height := some (Endian.little.unsigned (slice data 27 30 ++ [0]) + 1) }
  else {}

/-! ## Images -/

inductive ImageFormat where
  | jpeg
  | png
  | gif
  | tiff
  | bmp
  | webp
  deriving DecidableEq

inductive ParseStatus where
  | success
  | partlyParsed
  | corrupt
  deriving DecidableEq

/-- A warning; `error` is the text of the exception in its details. -/
structure MediaWarning where
  code : String
  messageKey : String
  developerMessage : String
  error : Option String := none
  deriving DecidableEq

structure ParsedImage where
  metadata : ImageMetadata
  warnings : List MediaWarning
  parseStatus : ParseStatus
  deriving DecidableEq

def readImage (P : ExifPlatform) (data : Bytes) :
    ImageFormat → Except Fault ImageMetadata
  | .jpeg => jpegMetadata P data
  | .png => pngMetadata data
  | .gif => gifMetadata data
  | .tiff => parseTiff P data
  | .bmp => bmpMetadata data
  | .webp => .ok (webpMetadata data)

def unrecognizedImage : MediaWarning where
  code := "IMAGE_MAGIC_UNRECOGNIZED"
  messageKey := "warning.media.image_magic_unrecognized"
  developerMessage :=
    "Image extension was present but file magic was invalid."

def corruptImage (error : String) : MediaWarning where
  code := "IMAGE_METADATA_CORRUPT"
  messageKey := "warning.media.image_metadata_corrupt"
  developerMessage := "Image metadata could not be parsed."
  error := some error

def noDimensions : MediaWarning where
  code := "IMAGE_DIMENSIONS_UNAVAILABLE"
  messageKey := "warning.media.image_dimensions_unavailable"
  developerMessage :=
    "Image dimensions were unavailable from safe header parsing."

/-- The check of the dimensions at the end of `_parse_image`. -/
def withDimensionCheck (parsed : ParsedImage) : ParsedImage :=
  if parsed.metadata.width = none ∨ parsed.metadata.height = none then
    { parsed with
      warnings := parsed.warnings ++ [noDimensions]
      parseStatus :=
        if parsed.parseStatus = .success then .partlyParsed
        else parsed.parseStatus }
  else parsed

/-- `_parse_image`; only `ValueError` is caught. -/
def parseImage (P : ExifPlatform) (data : Bytes) (format : Option ImageFormat) :
    Except Fault ParsedImage :=
  match format with
  | none =>
      .ok (withDimensionCheck ⟨{}, [unrecognizedImage], .corrupt⟩)
  | some format =>
      match readImage P data format with
      | .ok metadata => .ok (withDimensionCheck ⟨metadata, [], .success⟩)
      | .error (.valueError message) =>
          .ok (withDimensionCheck ⟨{}, [corruptImage message], .corrupt⟩)
      | .error fault => .error fault

end ApexForensic.Media
