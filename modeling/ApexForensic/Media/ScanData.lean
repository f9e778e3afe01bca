import ApexForensic.Media.Images

/-!
# The scan data of a JPEG file

The reader goes on to look for segments behind the header of a scan.  What the
entropy-coded bytes look like there decides on the metadata, unless a segment
before them could not be read.
-/

namespace ApexForensic.Media

open ApexForensic.Domain

variable {data tail : Bytes} {marker : UInt8}

/-! ## Segments as bytes -/

/-- A segment with a length field; any number of fill bytes may precede it. -/
structure Segment where
  fill : ℕ
  marker : UInt8
  payload : Bytes
  marker_ne : marker ≠ 0xFF
  hasLength : isStandalone marker = false
  length_lt : payload.length + 2 < 65536

def Segment.bytes (s : Segment) : Bytes :=
  List.replicate (s.fill + 1) 0xFF ++ s.marker ::
    UInt8.ofNat ((s.payload.length + 2) / 256) ::
    UInt8.ofNat ((s.payload.length + 2) % 256) :: s.payload

/-- A JPEG file up to and including the segment that starts a scan. -/
structure JpegHeader where
  segments : List Segment
  scan : Segment
  scan_marker : scan.marker = 0xDA

def JpegHeader.bytes (header : JpegHeader) : Bytes :=
  [0xFF, 0xD8] ++ header.segments.flatMap Segment.bytes ++ header.scan.bytes

variable (P : ExifPlatform)

/-- What is read from the segments before the scan. -/
def JpegHeader.read (header : JpegHeader) : Except Fault ImageMetadata :=
  header.segments.foldlM (fun metadata s =>
    readSegment P s.marker s.payload metadata) {}

/-- The segment is a frame header that is too short, or an EXIF block that
cannot be parsed. -/
def Segment.Unreadable (s : Segment) : Prop :=
  (isFrameHeader s.marker = true ∧ s.payload.length < 5) ∨
    s.marker = 0xE1 ∧ exifHeader.isPrefixOf s.payload = true ∧
      ∃ fault, parseTiff P (s.payload.drop 6) = .error fault

/-- The metadata and the status that are reported for a JPEG file. -/
def report (data : Bytes) : Except Fault (ImageMetadata × ParseStatus) :=
  (parseImage P data (some .jpeg)).map fun parsed =>
    (parsed.metadata, parsed.parseStatus)

/-- No bytes behind the header change what is reported. -/
def ScanIndependent (header : JpegHeader) : Prop :=
  ∀ scan scan', report P (header.bytes ++ scan) =
    report P (header.bytes ++ scan')

/-- Only the markers of restarts and of the ends of an image follow `0xFF`. -/
def Quiet (scan : Bytes) : Prop :=
  ∀ before marker after, scan = before ++ 0xFF :: marker :: after →
    marker = 0xFF ∨ isStandalone marker = true

variable {P}

/-! ## Reading a header -/

theorem bigEndian_length {n : ℕ} (h : n < 65536) :
    bigEndian [UInt8.ofNat (n / 256), UInt8.ofNat (n % 256)] = n := by
  have hhigh : n / 256 < 256 := by omega
  have hlow : n % 256 < 256 := Nat.mod_lt _ (by decide)
  simp only [bigEndian, List.foldl_cons, List.foldl_nil,
    UInt8.toNat_ofNat', Nat.mod_eq_of_lt hhigh, Nat.mod_eq_of_lt hlow]
  omega

theorem dropWhile_fill (n : ℕ) (h : marker ≠ 0xFF) (after : Bytes) :
    (List.replicate n 0xFF ++ marker :: after).dropWhile (· = 0xFF) =
      marker :: after := by
  induction n with
  | zero => rw [List.replicate_zero, List.nil_append, List.dropWhile_cons,
      if_neg (by simpa using h)]
  | succ n ih =>
      rw [List.replicate_succ, List.cons_append, List.dropWhile_cons,
        if_pos (by simp), ih]

theorem jpegSegments_marker {after : Bytes}
    (hlength : 4 ≤ (0xFF :: tail).length)
    (hmarker : tail.dropWhile (· = 0xFF) = marker :: after)
    (metadata : ImageMetadata) :
    jpegSegments P (0xFF :: tail) metadata =
      if isStandalone marker then jpegSegments P after metadata
      else if after.length < 2 then
        .error (.valueError "truncated JPEG segment length")
      else if bigEndian (after.take 2) < 2 then
        .error (.valueError "invalid JPEG segment length")
      else if after.length < bigEndian (after.take 2) then
        .error (.valueError "truncated JPEG segment")
      else
        readSegment P marker (slice after 2 (bigEndian (after.take 2)))
          metadata >>= fun next =>
            jpegSegments P (after.drop (bigEndian (after.take 2))) next := by
  rw [jpegSegments, if_neg (Nat.not_lt.mpr hlength)]
  dsimp only
  rw [if_neg (not_not.mpr rfl)]
  split
  · rename_i h
    rw [hmarker] at h
    cases h
  · rename_i marker' after' h
    rw [hmarker] at h
    cases h
    rfl

theorem jpegSegments_segment (s : Segment) (rest : Bytes)
    (metadata : ImageMetadata) :
    jpegSegments P (s.bytes ++ rest) metadata =
      (readSegment P s.marker s.payload metadata >>= fun next =>
        jpegSegments P rest next) := by
  have hbytes : s.bytes ++ rest = 0xFF :: (List.replicate s.fill 0xFF ++
      s.marker :: UInt8.ofNat ((s.payload.length + 2) / 256) ::
        UInt8.ofNat ((s.payload.length + 2) % 256) ::
          (s.payload ++ rest)) := by
    simp [Segment.bytes, List.replicate_succ]
  have hlength := s.length_lt
  rw [hbytes, jpegSegments_marker _ (dropWhile_fill s.fill s.marker_ne _),
    if_neg (by rw [s.hasLength]; exact Bool.false_ne_true)]
  · simp only [List.take_succ_cons, List.take_zero, bigEndian_length hlength,
      List.length_cons, List.length_append]
    rw [if_neg (by omega), if_neg (by omega), if_neg (by omega)]
    have hslice : ∀ a b : UInt8, slice (a :: b :: (s.payload ++ rest)) 2
        (s.payload.length + 2) = s.payload := by
      intro a b
      simp [slice]
    rw [hslice, List.drop_succ_cons, List.drop_succ_cons, List.drop_left]
  · simp only [List.length_cons, List.length_append, List.length_replicate]
    omega

theorem jpegSegments_skip {byte : UInt8} (hbyte : byte ≠ 0xFF)
    (hlength : 4 ≤ (byte :: tail).length) (metadata : ImageMetadata) :
    jpegSegments P (byte :: tail) metadata = jpegSegments P tail metadata := by
  rw [jpegSegments.eq_def, if_neg (Nat.not_lt.mpr hlength)]
  exact if_pos hbyte

theorem jpegSegments_nil (metadata : ImageMetadata) :
    jpegSegments P [] metadata = .ok metadata := by
  rw [jpegSegments, if_pos (by simp)]

theorem jpegSegments_segments (segments : List Segment) (rest : Bytes)
    (metadata : ImageMetadata) :
    jpegSegments P (segments.flatMap Segment.bytes ++ rest) metadata =
      (segments.foldlM (fun metadata s =>
          readSegment P s.marker s.payload metadata) metadata >>= fun next =>
        jpegSegments P rest next) := by
  induction segments generalizing metadata with
  | nil => rfl
  | cons s segments ih =>
      rw [List.flatMap_cons, List.append_assoc, jpegSegments_segment,
        List.foldlM_cons, bind_assoc]
      exact bind_congr fun next => ih next

theorem jpegMetadata_header (header : JpegHeader) (scan : Bytes) :
    jpegMetadata P (header.bytes ++ scan) =
      (header.read P >>= fun metadata => jpegSegments P scan metadata) := by
  have hscan : ∀ metadata, jpegSegments P (header.scan.bytes ++ scan)
      metadata = jpegSegments P scan metadata := by
    intro metadata
    rw [jpegSegments_segment, readSegment, header.scan_marker]
    rfl
  have hdrop : (header.bytes ++ scan).drop 2 =
      header.segments.flatMap Segment.bytes ++
        (header.scan.bytes ++ scan) := by
    simp [JpegHeader.bytes]
  rw [jpegMetadata, hdrop, jpegSegments_segments]
  exact bind_congr fun metadata => hscan metadata

/-! ## Segments that cannot be read -/

theorem readSegment_error_iff (s : Segment) (metadata : ImageMetadata) :
    (∃ fault, readSegment P s.marker s.payload metadata = .error fault) ↔
      s.Unreadable P := by
  rw [readSegment, Segment.Unreadable]
  by_cases hframe : isFrameHeader s.marker = true
  · rw [if_pos hframe]
    have hmarker : s.marker ≠ 0xE1 := by
      intro h
      rw [h] at hframe
      exact absurd hframe (by decide)
    by_cases hshort : s.payload.length < 5
    · rw [if_pos hshort]
      exact iff_of_true ⟨_, rfl⟩ (Or.inl ⟨hframe, hshort⟩)
    · rw [if_neg hshort]
      exact iff_of_false (fun ⟨_, h⟩ => nomatch h) fun h =>
        h.elim (fun h => hshort h.2) fun h => hmarker h.1
  · rw [if_neg hframe]
    by_cases hexif : s.marker = 0xE1 ∧ exifHeader.isPrefixOf s.payload = true
    · rw [if_pos hexif]
      cases hparsed : parseTiff P (s.payload.drop 6) with
      | error fault =>
          exact iff_of_true ⟨fault, rfl⟩ (Or.inr ⟨hexif.1, hexif.2, fault, rfl⟩)
      | ok parsed =>
          exact iff_of_false (fun ⟨_, h⟩ => nomatch h) fun h =>
            h.elim (fun h => hframe h.1) fun ⟨_, _, _, h⟩ => nomatch h
    · rw [if_neg hexif]
      exact iff_of_false (fun ⟨_, h⟩ => nomatch h) fun h =>
        h.elim (fun h => hframe h.1) fun h => hexif ⟨h.1, h.2.1⟩

theorem foldlM_error_iff (segments : List Segment) (metadata : ImageMetadata) :
    (∃ fault, segments.foldlM (fun metadata s =>
        readSegment P s.marker s.payload metadata) metadata = .error fault) ↔
      ∃ s ∈ segments, s.Unreadable P := by
  induction segments generalizing metadata with
  | nil => exact iff_of_false (fun ⟨_, h⟩ => nomatch h) (by simp)
  | cons s segments ih =>
      simp only [List.foldlM_cons, List.mem_cons, exists_eq_or_imp]
      have hs := readSegment_error_iff (P := P) s metadata
      cases hread : readSegment P s.marker s.payload metadata with
      | error fault =>
          exact iff_of_true ⟨fault, rfl⟩ (Or.inl (hs.mp ⟨fault, hread⟩))
      | ok next =>
          have hreadable : ¬ s.Unreadable P := by
            rw [← hs, hread]
            exact fun ⟨_, h⟩ => nomatch h
          rw [or_iff_right hreadable]
          exact ih next

theorem JpegHeader.read_error_iff (header : JpegHeader) :
    (∃ fault, header.read P = .error fault) ↔
      ∃ s ∈ header.segments, s.Unreadable P :=
  foldlM_error_iff header.segments {}

/-! ## Bytes behind the header -/

theorem report_of_ok {metadata : ImageMetadata}
    (h : jpegMetadata P data = .ok metadata) :
    ∃ status, report P data = .ok (metadata, status) ∧ status ≠ .corrupt := by
  have hparsed : parseImage P data (some .jpeg) =
      .ok (withDimensionCheck ⟨metadata, [], .success⟩) := by
    rw [parseImage, readImage, h]
  rw [report, hparsed, withDimensionCheck]
  by_cases hdimensions : metadata.width = none ∨ metadata.height = none
  · rw [if_pos hdimensions]
    exact ⟨.partlyParsed, rfl, by decide⟩
  · rw [if_neg hdimensions]
    exact ⟨.success, rfl, by decide⟩

theorem report_of_valueError {message : String}
    (h : jpegMetadata P data = .error (.valueError message)) :
    report P data = .ok ({}, .corrupt) := by
  have hparsed : parseImage P data (some .jpeg) =
      .ok (withDimensionCheck ⟨{}, [corruptImage message], .corrupt⟩) := by
    rw [parseImage, readImage, h]
  rw [report, hparsed]
  rfl

theorem report_congr {data' : Bytes}
    (h : jpegMetadata P data = jpegMetadata P data') :
    report P data = report P data' := by
  rw [report, report, parseImage, parseImage, readImage, readImage, h]

/-- Four bytes that the reader takes for a segment without a length. -/
def zeroLength : Bytes := [0xFF, 0, 0, 0]

theorem jpegSegments_zeroLength (metadata : ImageMetadata) :
    jpegSegments P zeroLength metadata =
      .error (.valueError "invalid JPEG segment length") := by
  have hmarker : ([0, 0, 0] : Bytes).dropWhile (· = 0xFF) = 0 :: [0, 0] := by
    decide
  rw [zeroLength, jpegSegments_marker (by decide) hmarker]
  rfl

/-- The scan data can make a file corrupt whose segments were all read. -/
theorem not_scanIndependent {header : JpegHeader} {metadata : ImageMetadata}
    (h : header.read P = .ok metadata) : ¬ ScanIndependent P header := by
  intro hindependent
  have hempty : jpegMetadata P (header.bytes ++ []) = .ok metadata := by
    rw [jpegMetadata_header, h, ok_bind, jpegSegments_nil]
  have hzero : jpegMetadata P (header.bytes ++ zeroLength) =
      .error (.valueError "invalid JPEG segment length") := by
    rw [jpegMetadata_header, h, ok_bind, jpegSegments_zeroLength]
  obtain ⟨status, hreport, hstatus⟩ := report_of_ok hempty
  have hsame := hindependent [] zeroLength
  rw [hreport, report_of_valueError hzero] at hsame
  exact hstatus (congrArg Prod.snd (Except.ok.inj hsame))

theorem Quiet.of_suffix {scan rest : Bytes} (h : Quiet scan)
    (hsuffix : rest <:+ scan) : Quiet rest := by
  obtain ⟨skipped, rfl⟩ := hsuffix
  intro before marker after hrest
  refine h (skipped ++ before) marker after ?_
  rw [hrest, List.append_assoc]

theorem exists_fill {after : Bytes}
    (h : tail.dropWhile (· = 0xFF) = marker :: after) :
    ∃ before, 0xFF :: tail = before ++ 0xFF :: marker :: after ∧
      marker ≠ 0xFF := by
  induction tail with
  | nil => cases h
  | cons byte tail ih =>
      by_cases hbyte : byte = 0xFF
      · subst hbyte
        rw [List.dropWhile_cons, if_pos (by simp)] at h
        obtain ⟨before, htail, hne⟩ := ih h
        exact ⟨0xFF :: before, by rw [htail, List.cons_append], hne⟩
      · rw [List.dropWhile_cons, if_neg (by simpa using hbyte)] at h
        cases h
        exact ⟨[], rfl, hbyte⟩

theorem jpegSegments_of_quiet {scan : Bytes} (h : Quiet scan)
    (metadata : ImageMetadata) :
    jpegSegments P scan metadata = .ok metadata := by
  induction hlength : scan.length using Nat.strong_induction_on
    generalizing scan with
  | _ n ih =>
      by_cases hshort : scan.length < 4
      · rw [jpegSegments.eq_def, if_pos hshort]
      · cases scan with
        | nil => exact absurd (Nat.zero_lt_succ 3) hshort
        | cons byte tail =>
            by_cases hbyte : byte = 0xFF
            · subst hbyte
              cases hmarker : tail.dropWhile (· = (0xFF : UInt8)) with
              | nil =>
                  rw [jpegSegments.eq_def, if_neg hshort]
                  dsimp only
                  rw [if_neg (not_not.mpr rfl)]
                  split
                  · rfl
                  · rename_i h
                    rw [hmarker] at h
                    cases h
              | cons marker after =>
                  have hsplit := exists_fill hmarker
                  obtain ⟨before, htail, hne⟩ := hsplit
                  have hstandalone : isStandalone marker = true :=
                    (h before marker after htail).resolve_left hne
                  have hsuffix : after <:+ 0xFF :: tail :=
                    ⟨before ++ [0xFF, marker], by rw [htail]; simp⟩
                  have hshorter : after.length < n := by
                    rw [← hlength, htail]
                    simp
                    omega
                  rw [jpegSegments_marker (Nat.not_lt.mp hshort) hmarker,
                    if_pos hstandalone]
                  exact ih after.length hshorter (h.of_suffix hsuffix) rfl
            · have hrest := ih tail.length (by rw [← hlength]; simp)
                (h.of_suffix (List.suffix_cons byte tail)) rfl
              rw [jpegSegments.eq_def, if_neg hshort]
              dsimp only
              rw [if_pos hbyte, hrest]

/-- What is reported depends on the bytes behind the header of a scan, unless
a segment before it is unreadable; quiet bytes change nothing. -/
theorem scanIndependent_iff (header : JpegHeader) :
    (ScanIndependent P header ↔ ∃ s ∈ header.segments, s.Unreadable P) ∧
      ∀ scan, Quiet scan →
        report P (header.bytes ++ scan) = report P header.bytes := by
  refine ⟨⟨fun hindependent => ?_, fun hunreadable scan scan' => ?_⟩,
    fun scan hquiet => ?_⟩
  · rw [← header.read_error_iff]
    cases hread : header.read P with
    | error fault => exact ⟨fault, rfl⟩
    | ok metadata => exact absurd hindependent (not_scanIndependent hread)
  · obtain ⟨fault, hread⟩ := header.read_error_iff.mpr hunreadable
    apply report_congr
    rw [jpegMetadata_header, jpegMetadata_header, hread]
    rfl
  · have hempty := jpegMetadata_header (P := P) header []
    rw [List.append_nil] at hempty
    apply report_congr
    rw [hempty, jpegMetadata_header]
    apply bind_congr
    intro metadata
    rw [jpegSegments_of_quiet hquiet, jpegSegments_nil]

/-! ## A stuffed byte -/

/-- The header of a gray image of 8 by 8 pixels. -/
def grayHeader : JpegHeader where
  segments := [{
    fill := 0
    marker := 0xC0
    payload := [8, 0, 8, 0, 8, 1, 1, 0x11, 0]
    marker_ne := by decide
    hasLength := by decide
    length_lt := by decide }]
  scan := {
    fill := 0
    marker := 0xDA
    payload := [1, 1, 0, 0, 63, 0]
    marker_ne := by decide
    hasLength := by decide
    length_lt := by decide }
  scan_marker := rfl

/-- Entropy-coded data with a stuffed `0xFF`, and the end of the image. -/
def stuffedScan : Bytes := [0x25, 0xFF, 0x00, 0x00, 0x01, 0xFF, 0xD9]

/-- A platform that reads no text. -/
def blankPlatform : ExifPlatform :=
  ⟨fun _ => "", id, .error, fun _ => none, fun _ => none⟩

theorem stuffed_byte_is_corrupt :
    report blankPlatform (grayHeader.bytes ++ [0xFF, 0xD9]) =
        .ok ({ width := some 8, height := some 8 }, .success) ∧
      report blankPlatform (grayHeader.bytes ++ stuffedScan) =
        .ok ({}, .corrupt) := by
  generalize blankPlatform = P
  have hread : grayHeader.read P =
      .ok { width := some 8, height := some 8 } := rfl
  have hend : jpegMetadata P (grayHeader.bytes ++ [0xFF, 0xD9]) =
      .ok { width := some 8, height := some 8 } := by
    rw [jpegMetadata_header, hread, ok_bind, jpegSegments.eq_def]
    rfl
  have hmarker : ([0x00, 0x00, 0x01, 0xFF, 0xD9] : Bytes).dropWhile
      (· = 0xFF) = 0x00 :: [0x00, 0x01, 0xFF, 0xD9] := by decide
  have hstuffed : jpegMetadata P (grayHeader.bytes ++ stuffedScan) =
      .error (.valueError "invalid JPEG segment length") := by
    rw [jpegMetadata_header, hread, ok_bind, stuffedScan,
      jpegSegments_skip (by decide) (by decide),
      jpegSegments_marker (by decide) hmarker]
    rfl
  refine ⟨?_, report_of_valueError hstuffed⟩
  rw [report, parseImage, readImage, hend]
  rfl

end ApexForensic.Media
