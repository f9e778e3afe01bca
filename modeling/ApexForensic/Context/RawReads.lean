import ApexForensic.Domain.Errors
import ApexForensic.Support.Keyset

/-!
# Reading a byte range page by page

A read is bounded by its own length, by the locator and by the file.  Without
a length of the locator the second page has no range left, and a page is
called truncated when it is shorter than what was asked for, so that the last
page is and a full page within the preview is not.
-/

namespace ApexForensic.Context.RawReads

open ApexForensic.Support ApexForensic.Domain

variable {length offset : ℤ}

abbrev Bytes := List UInt8

def defaultRawReadLength : ℕ := 4096
def maxRawReadLength : ℕ := 1024 * 1024
def rawPreviewBytes : ℕ := 4096
def chunkSize : ℕ := 1024 * 1024

def rawReadError (code developerMessage : String) (target : Option String)
    (details : List (String × Json)) : PyError :=
  .apex
    { code := code
      messageKey := codeMessageKey code
      developerMessage := some developerMessage
      target := target
      retryable := false
      details := details }

/-- What the reader takes from the Python library: the digest of a file, and a
strict incremental decoder, with no text where the encoding is unknown or the
bytes do not decode. -/
structure RawPlatform where
  sha256 : Bytes → String
  decode : String → Bytes → Except PyError (Option String)

/-- The indexed size of a source, and the bytes that its handle reads. -/
structure RawSource where
  fileSize : Option ℕ
  contents : Bytes

/-- A locator with a byte offset. -/
structure ByteRange where
  offset : ℤ
  length : Option ℤ
  encoding : Option String
  contentSha256 : Option String

/-- The fields of `RawViewProjection` that depend on what is read; the preview
is kept as bytes. -/
structure RawViewProjection where
  requestedOffset : ℤ
  requestedLength : ℤ
  returnedOffset : ℤ
  returnedLength : ℕ
  totalLength : ℕ
  encoding : Option String
  contentType : String
  hexPreview : Bytes
  textPreview : Option String
  truncated : Bool
  rangeSha256 : String
  sourceContentSha256 : Option String

/-! ## The reader -/

/-- `EvidenceFileContent.read`. -/
def readContent (source : RawSource) (offset length : ℤ) :
    Except PyError Bytes := do
  if offset < 0 ∨ length < 0 ∨ (chunkSize : ℤ) < length then
    .error (rawReadError "RAW_RANGE_INVALID" "Invalid file read range." none [])
  let size := source.fileSize.getD 0
  if (size : ℤ) < offset then
    .error (rawReadError "RAW_RANGE_INVALID" "Offset is beyond file EOF."
      none [])
  let expected := min length.toNat (size - offset.toNat)
  let data := (source.contents.drop offset.toNat).take expected
  if data.length ≠ expected then
    .error (rawReadError "RAW_SOURCE_CHANGED" "Unexpected end of source file."
      none [])
  return data

def startsWithMark (data : Bytes) : Bool :=
  [0xff, 0xfe].isPrefixOf data || [0xfe, 0xff].isPrefixOf data

/-- `_text_preview`, with the content type. -/
def textPreview (P : RawPlatform) (data : Bytes) (encoding : Option String) :
    Except PyError (Option String × String) := do
  let given := encoding.getD ""
  if 0 ∈ data ∧ given = "" ∧ startsWithMark data = false then
    return (none, "application/octet-stream")
  let candidate := if given ≠ "" then given
    else if startsWithMark data then "utf-16" else "utf-8-sig"
  match ← P.decode candidate (data.take rawPreviewBytes) with
  | some text => return (some text, "text/plain")
  | none => return (none, "application/octet-stream")

section

variable (P : RawPlatform) (source : RawSource) (locator : ByteRange)

/-- `read_locator` up to the bytes it reads. -/
def locatorData (offset requestedLength : ℤ) : Except PyError Bytes := do
  if locator.offset < 0 then
    .error (rawReadError "RAW_RANGE_INVALID" "Negative locator offset." none [])
  let allowedLength := locator.length.getD requestedLength
  if allowedLength < offset then
    .error (rawReadError "RAW_RANGE_INVALID"
      "Raw read offset is beyond the locator range." (some "offset") [])
  let readLength := min requestedLength (allowedLength - offset)
  let totalLength := source.fileSize.getD 0
  let absoluteOffset := locator.offset + offset
  if (totalLength : ℤ) < absoluteOffset then
    .error (rawReadError "RAW_RANGE_INVALID" "Raw read offset is beyond EOF."
      (some "offset") [])
  readContent source absoluteOffset readLength

/-- The projection of the bytes that were read. -/
def projectionOf (offset requestedLength : ℤ) (data : Bytes) :
    Except PyError RawViewProjection := do
  let (text, contentType) ← textPreview P data locator.encoding
  return {
    requestedOffset := offset
    requestedLength := requestedLength
    returnedOffset := offset
    returnedLength := data.length
    totalLength := source.fileSize.getD 0
    encoding := locator.encoding
    contentType := contentType
    hexPreview := data.take rawPreviewBytes
    textPreview := text
    truncated := (data.length : ℤ) < requestedLength ||
      rawPreviewBytes < data.length
    rangeSha256 := P.sha256 data
    sourceContentSha256 := locator.contentSha256 }

/-- A page: the projection that `read_locator` returns for a locator that was
validated, and the bytes it is made from. -/
def readPage (offset : ℤ) (length : Option ℤ) :
    Except PyError (RawViewProjection × Bytes) := do
  if offset < 0 then
    .error (rawReadError "RAW_RANGE_INVALID"
      "Raw read offset cannot be negative." (some "offset") [])
  let requestedLength := length.getD defaultRawReadLength
  if requestedLength < 1 then
    .error (rawReadError "RAW_RANGE_INVALID"
      "Raw read length must be positive." (some "length") [])
  if (maxRawReadLength : ℤ) < requestedLength then
    .error (rawReadError "RAW_READ_LIMIT_EXCEEDED"
      "Raw read length exceeds maximum policy." (some "length")
      [("maximum", .int maxRawReadLength)])
  let data ← locatorData source locator offset requestedLength
  let projection ← projectionOf P source locator offset requestedLength data
  return (projection, data)

/-! ## Paging -/

/-- The bytes of the range: as many as the locator has, or those up to the end
of the file. -/
def rangeLength : ℕ :=
  locator.length.elim (source.contents.length - locator.offset.toNat) Int.toNat

def rangeBytes : Bytes :=
  (source.contents.drop locator.offset.toNat).take (rangeLength source locator)

/-- The offset after a page, unless nothing was returned or the locator range
or the file is exhausted. -/
def nextOffset (page : RawViewProjection × Bytes) : Option ℤ :=
  let offset := page.1.returnedOffset + page.1.returnedLength
  if page.1.returnedLength = 0 ∨ locator.length.any (· ≤ offset) ∨
      (source.contents.length : ℤ) ≤ locator.offset + offset then none
  else some offset

/-- The pages that are read with chunks of one length. -/
def readPages (length : ℤ) (n : ℕ) :
    Except PyError (List (RawViewProjection × Bytes)) :=
  follow (fun offset => readPage P source locator (offset.getD 0) (some length))
    (nextOffset source locator) n none

/-- A source with its indexed size, and a range inside of it. -/
structure RangeInside : Prop where
  size : source.fileSize.getD 0 = source.contents.length
  offset_nonneg : 0 ≤ locator.offset
  offset_le : locator.offset ≤ source.contents.length
  length_nonneg : ∀ length, locator.length = some length → 0 ≤ length
  length_le : ∀ length, locator.length = some length →
    locator.offset + length ≤ source.contents.length

/-- A page has the digest of its bytes, and is truncated if bytes of the range
remain after it. -/
structure PageHolds (page : RawViewProjection × Bytes) : Prop where
  rangeSha256 : page.1.rangeSha256 = P.sha256 page.2
  truncated : page.1.truncated = true ↔
    page.1.returnedOffset + page.1.returnedLength < rangeLength source locator

/-- The pages end, are the range in order, and each is as promised. -/
def PagesRange (length : ℤ) : Prop :=
  ∃ bound pages,
    (∀ n ≥ bound, readPages P source locator length n = .ok pages) ∧
    pages.flatMap Prod.snd = rangeBytes source locator ∧
    ∀ page ∈ pages, PageHolds P source locator page

end

/-! ## One page -/

section Page

variable {P : RawPlatform} {source : RawSource} {locator : ByteRange}

/-- The bytes of a page: a chunk of the range and of the file. -/
def pageData (source : RawSource) (locator : ByteRange)
    (length offset : ℤ) : Bytes :=
  (source.contents.drop (locator.offset + offset).toNat).take
    (min (min length (locator.length.getD length - offset)).toNat
      (source.contents.length - (locator.offset + offset).toNat))

/-- A page that was read at an offset with chunks of one length. -/
structure ReadAt (P : RawPlatform) (source : RawSource) (locator : ByteRange)
    (length offset : ℤ) (page : RawViewProjection × Bytes) : Prop where
  nonneg : 0 ≤ offset
  within : offset ≤ locator.length.getD length
  data : page.2 = pageData source locator length offset
  returnedOffset : page.1.returnedOffset = offset
  returnedLength : page.1.returnedLength = page.2.length
  truncated : page.1.truncated = true ↔
    (page.2.length : ℤ) < length ∨ rawPreviewBytes < page.2.length
  rangeSha256 : page.1.rangeSha256 = P.sha256 page.2

theorem readContent_eq_ok (h : RangeInside source locator) {data : Bytes}
    (hread : readContent source offset length = .ok data) :
    data = (source.contents.drop offset.toNat).take
      (min length.toNat (source.contents.length - offset.toNat)) := by
  rw [readContent] at hread
  obtain ⟨-, hread⟩ := check_ok hread
  obtain ⟨-, hread⟩ := check_ok hread
  obtain ⟨-, hread⟩ := check_ok hread
  rw [← Except.ok.inj hread, h.size]

theorem readPage_eq_ok (h : RangeInside source locator)
    {page : RawViewProjection × Bytes}
    (hread : readPage P source locator offset (some length) = .ok page) :
    ReadAt P source locator length offset page := by
  rw [readPage] at hread
  obtain ⟨hnonneg, hread⟩ := check_ok hread
  obtain ⟨-, hread⟩ := check_ok hread
  obtain ⟨-, hread⟩ := check_ok hread
  obtain ⟨data, hdata, hread⟩ := bind_ok hread
  obtain ⟨projection, hprojection, hread⟩ := bind_ok hread
  obtain rfl := Except.ok.inj hread
  rw [locatorData] at hdata
  obtain ⟨-, hdata⟩ := check_ok hdata
  obtain ⟨hwithin, hdata⟩ := check_ok hdata
  obtain ⟨-, hdata⟩ := check_ok hdata
  obtain ⟨preview, -, hprojection⟩ := bind_ok hprojection
  obtain rfl := Except.ok.inj hprojection
  refine ⟨not_lt.mp hnonneg, not_lt.mp hwithin, readContent_eq_ok h hdata, rfl,
    rfl, ?_, rfl⟩
  rw [Bool.or_eq_true, decide_eq_true_iff, decide_eq_true_iff]
  rfl

theorem ReadAt.length_eq {page : RawViewProjection × Bytes}
    (h : ReadAt P source locator length offset page) :
    page.2.length =
      min (min length (locator.length.getD length - offset)).toNat
        (source.contents.length - (locator.offset + offset).toNat) := by
  rw [h.data, pageData, List.length_take, List.length_drop]
  omega

theorem exists_readPage (h : RangeInside source locator) (hpos : 1 ≤ length)
    (hmax : length ≤ maxRawReadLength) (hnonneg : 0 ≤ offset)
    (hwithin : offset ≤ locator.length.getD length)
    (hfile : locator.offset + offset ≤ source.contents.length)
    {preview : Option String × String}
    (hpreview : textPreview P (pageData source locator length offset)
      locator.encoding = .ok preview) :
    ∃ page, readPage P source locator offset (some length) = .ok page := by
  have hstart := h.offset_nonneg
  have hsize := h.size
  have hchunk : length ≤ chunkSize := hmax
  have hdata : locatorData source locator offset length =
      .ok (pageData source locator length offset) := by
    rw [locatorData, check_eq_ok_iff, check_eq_ok_iff, check_eq_ok_iff,
      readContent, check_eq_ok_iff, check_eq_ok_iff, check_eq_ok_iff, hsize]
    refine ⟨by omega, by omega, by omega, by omega, by omega, ?_, rfl⟩
    rw [not_not, List.length_take, List.length_drop]
    omega
  obtain ⟨projection, hprojection⟩ : ∃ projection, projectionOf P source
      locator offset length (pageData source locator length offset) =
        .ok projection := by
    rw [projectionOf, hpreview, ok_bind]
    exact ⟨_, rfl⟩
  refine ⟨(projection, pageData source locator length offset), ?_⟩
  rw [readPage, check_eq_ok_iff, check_eq_ok_iff, check_eq_ok_iff,
    Option.getD_some, hdata, ok_bind, hprojection, ok_bind]
  exact ⟨by omega, by omega, by omega, rfl⟩

end Page

/-! ## All pages -/

section Pages

variable {P : RawPlatform} {source : RawSource} {locator : ByteRange}
  {length : ℤ}

theorem rangeLength_le (h : RangeInside source locator) :
    locator.offset + rangeLength source locator ≤ source.contents.length := by
  have hstart := h.offset_nonneg
  have hend := h.offset_le
  rw [rangeLength]
  cases hlength : locator.length with
  | none =>
      rw [Option.elim_none]
      omega
  | some bound =>
      have hbound := h.length_nonneg bound hlength
      have hle := h.length_le bound hlength
      rw [Option.elim_some]
      omega

theorem length_rangeBytes (h : RangeInside source locator) :
    (rangeBytes source locator).length = rangeLength source locator := by
  have hle := rangeLength_le h
  have hstart := h.offset_nonneg
  rw [rangeBytes, List.length_take, List.length_drop]
  omega

theorem length_pageData_zero (h : RangeInside source locator)
    (hpos : 1 ≤ length) : (pageData source locator length 0).length =
      min length.toNat (rangeLength source locator) := by
  have hstart := h.offset_nonneg
  have hle := rangeLength_le h
  rw [pageData, List.length_take, List.length_drop]
  rw [rangeLength] at hle ⊢
  cases hlength : locator.length with
  | none =>
      rw [Option.elim_none, Option.getD_none]
      omega
  | some bound =>
      have hbound := h.length_nonneg bound hlength
      rw [hlength, Option.elim_some] at hle
      rw [Option.elim_some, Option.getD_some]
      omega

theorem nextOffset_eq_none_iff {page : RawViewProjection × Bytes}
    (h : ReadAt P source locator length offset page) :
    nextOffset source locator page = none ↔
      page.2.length = 0 ∨
        locator.length.any (· ≤ offset + page.2.length) = true ∨
        (source.contents.length : ℤ) ≤
          locator.offset + (offset + page.2.length) := by
  rw [nextOffset, h.returnedOffset, h.returnedLength]
  simp only [ite_eq_left_iff, reduceCtorEq, imp_false, not_not]

theorem ReadAt.not_truncated_of_last (h : RangeInside source locator)
    (hpos : 1 ≤ length) {bound : ℤ} (hbound : locator.length = some bound)
    {page : RawViewProjection × Bytes}
    (hread : ReadAt P source locator length offset page)
    (hlast : nextOffset source locator page = none) :
    ¬ page.1.returnedOffset + page.1.returnedLength <
      rangeLength source locator := by
  have hlength := hread.length_eq
  have hwithin := hread.within
  have hnonneg := hread.nonneg
  have hstart := h.offset_nonneg
  have hfile := h.length_le bound hbound
  rw [nextOffset_eq_none_iff hread, hbound] at hlast
  rw [hbound, Option.getD_some] at hlength hwithin
  rw [hread.returnedOffset, hread.returnedLength, rangeLength, hbound,
    Option.elim_some]
  rcases hlast with hzero | hrange | hend
  · omega
  · have hle := of_decide_eq_true hrange
    omega
  · omega

theorem ReadAt.eq_nil_of_second (h : RangeInside source locator)
    (hnone : locator.length = none) {page : RawViewProjection × Bytes}
    (hread : ReadAt P source locator length length page) : page.2 = [] := by
  have hlength := hread.length_eq
  rw [hnone, Option.getD_none] at hlength
  apply List.eq_nil_of_length_eq_zero
  omega

theorem readPages_succ {n : ℕ} {pages : List (RawViewProjection × Bytes)}
    (h : readPages P source locator length (n + 1) = .ok pages) :
    ∃ page rest, readPage P source locator 0 (some length) = .ok page ∧
      pages = page :: rest ∧
      match nextOffset source locator page with
      | none => rest = []
      | some offset => follow (fun offset => readPage P source locator
          (offset.getD 0) (some length)) (nextOffset source locator) n
            (some offset) = .ok rest := by
  obtain ⟨page, hpage, h⟩ := bind_ok h
  cases hnext : nextOffset source locator page with
  | none =>
      rw [hnext] at h
      exact ⟨page, [], hpage, (Except.ok.inj h).symm, by rw [hnext]⟩
  | some offset =>
      rw [hnext] at h
      obtain ⟨rest, hrest, h⟩ := bind_ok h
      exact ⟨page, rest, hpage, (Except.ok.inj h).symm, by
        rw [hnext]
        exact hrest⟩

theorem exists_textPreview {page : RawViewProjection × Bytes}
    (hread : readPage P source locator offset (some length) = .ok page) :
    ∃ preview, textPreview P page.2 locator.encoding = .ok preview := by
  rw [readPage] at hread
  obtain ⟨-, hread⟩ := check_ok hread
  obtain ⟨-, hread⟩ := check_ok hread
  obtain ⟨-, hread⟩ := check_ok hread
  obtain ⟨data, -, hread⟩ := bind_ok hread
  obtain ⟨projection, hprojection, hread⟩ := bind_ok hread
  obtain rfl := Except.ok.inj hread
  obtain ⟨preview, hpreview, -⟩ := bind_ok hprojection
  exact ⟨preview, hpreview⟩

theorem pageData_zero_eq (h : RangeInside source locator)
    (hpos : 1 ≤ length) (hlength : rangeLength source locator = length) :
    pageData source locator length 0 = rangeBytes source locator := by
  have hpage := length_pageData_zero h hpos
  rw [pageData, List.length_take, List.length_drop, Int.add_zero] at hpage
  rw [pageData, rangeBytes, Int.add_zero]
  have hle := rangeLength_le h
  have hstart := h.offset_nonneg
  congr 1
  omega

theorem eq_of_none (h : RangeInside source locator) (hpos : 1 ≤ length)
    (hnone : locator.length = none)
    (hlong : length < rangeLength source locator) {n : ℕ}
    {pages : List (RawViewProjection × Bytes)}
    (hpages : readPages P source locator length (n + 2) = .ok pages) :
    (pages.flatMap Prod.snd).length = length := by
  obtain ⟨page, rest, hpage, rfl, hrest⟩ := readPages_succ hpages
  have hread := readPage_eq_ok h hpage
  have hlen : (page.2.length : ℤ) = length := by
    have hzero := length_pageData_zero h hpos
    rw [← hread.data] at hzero
    omega
  have hle := rangeLength_le h
  have hnext : nextOffset source locator page = some length := by
    cases hnext : nextOffset source locator page with
    | none =>
        rw [nextOffset_eq_none_iff hread, hnone, hlen] at hnext
        rcases hnext with hzero | hany | hend
        · omega
        · cases hany
        · omega
    | some offset =>
        rw [nextOffset, hread.returnedOffset, hread.returnedLength, hlen]
          at hnext
        split at hnext
        · cases hnext
        · rw [← Option.some.inj hnext, Int.zero_add]
  rw [hnext] at hrest
  obtain ⟨second, hsecond, hrest⟩ := bind_ok hrest
  have hempty := (readPage_eq_ok h hsecond).eq_nil_of_second h hnone
  have hlast : nextOffset source locator second = none := by
    rw [nextOffset_eq_none_iff (readPage_eq_ok h hsecond), hempty]
    exact Or.inl rfl
  rw [hlast] at hrest
  obtain rfl := Except.ok.inj hrest
  rw [List.flatMap_cons, List.flatMap_singleton, hempty, List.append_nil, hlen]

/-- Reading page by page is as promised when the range is one chunk, no longer
than the preview, whose text the decoder previews or declines. -/
theorem pagesRange_iff (P : RawPlatform) (h : RangeInside source locator)
    (hpos : 1 ≤ length) (hmax : length ≤ maxRawReadLength) :
    PagesRange P source locator length ↔
      rangeLength source locator = length ∧ length ≤ rawPreviewBytes ∧
        ∃ preview, textPreview P (rangeBytes source locator) locator.encoding =
          .ok preview := by
  have hstart := h.offset_nonneg
  have hle := rangeLength_le h
  have hfirst := length_pageData_zero h hpos
  constructor
  · rintro ⟨bound, pages, hpages, hconcat, hholds⟩
    obtain ⟨page, rest, hpage, rfl, -⟩ :=
      readPages_succ (hpages (bound + 1) (Nat.le_succ _))
    have hread := readPage_eq_ok h hpage
    have htruncated := (hholds page List.mem_cons_self).truncated
    rw [hread.truncated, hread.returnedOffset, hread.returnedLength, hread.data,
      hfirst] at htruncated
    rcases lt_trichotomy (rangeLength source locator : ℤ) length with
      hshort | hequal | hlong
    · omega
    · refine ⟨hequal, by omega, ?_⟩
      rw [← pageData_zero_eq h hpos hequal, ← hread.data]
      exact exists_textPreview hpage
    · exfalso
      cases hlength : locator.length with
      | none =>
          have hshorter := eq_of_none h hpos hlength hlong
            (hpages (bound + 2) (by omega))
          rw [hconcat, length_rangeBytes h] at hshorter
          omega
      | some limit =>
          -- the last page ends the range and is no longer than the preview
          obtain ⟨last, hlast, ⟨offset, hfetch⟩, hnone⟩ := exists_last_of_follow
            (hpages bound le_rfl) (hpages (bound + 1) (Nat.le_succ _))
          have hreadLast := readPage_eq_ok h hfetch
          have hnot := hreadLast.not_truncated_of_last h hpos hlength hnone
          rw [← (hholds last hlast).truncated, hreadLast.truncated] at hnot
          omega
  · rintro ⟨hequal, hshort, preview, hpreview⟩
    rw [← pageData_zero_eq h hpos hequal] at hpreview
    have hwithin : 0 ≤ locator.length.getD length := by
      cases hlength : locator.length with
      | none => exact le_of_lt hpos
      | some limit => exact h.length_nonneg limit hlength
    obtain ⟨page, hpage⟩ := exists_readPage h hpos hmax le_rfl hwithin
      (by omega) hpreview
    have hread := readPage_eq_ok h hpage
    have hdata := hread.data.trans (pageData_zero_eq h hpos hequal)
    have hlen := (congrArg List.length hdata).trans (length_rangeBytes h)
    have hnone : nextOffset source locator page = none := by
      rw [nextOffset_eq_none_iff hread, hlen]
      rw [rangeLength] at hequal hle ⊢
      cases hlength : locator.length with
      | none =>
          rw [hlength, Option.elim_none] at hequal
          rw [Option.elim_none]
          omega
      | some limit =>
          have hlimit := h.length_nonneg limit hlength
          refine Or.inr (Or.inl (decide_eq_true ?_))
          rw [Option.elim_some]
          omega
    refine ⟨1, [page], fun n hn => ?_, ?_, ?_⟩
    · obtain ⟨m, rfl⟩ := Nat.exists_eq_add_of_le' hn
      rw [readPages, follow]
      show (readPage P source locator 0 (some length) >>= _) = _
      rw [hpage, ok_bind, hnone]
    · rw [List.flatMap_singleton, hdata]
    · intro other hother
      obtain rfl := List.mem_singleton.mp hother
      refine ⟨hread.rangeSha256, ?_⟩
      rw [hread.truncated, hread.returnedOffset, hread.returnedLength, hlen]
      omega

end Pages

/-! ## One byte at a time -/

/-- A decoder of ASCII bytes, and a text that has the bytes for a digest. -/
def asciiReader : RawPlatform where
  sha256 data := String.ofList (data.map fun b => Char.ofNat b.toNat)
  decode _ data :=
    if data.all (· < 128) then
      .ok (some (String.ofList (data.map fun b => Char.ofNat b.toNat)))
    else .ok none

def fromStart : ByteRange where
  offset := 0
  length := none
  encoding := none
  contentSha256 := none

theorem fromStart_inside (contents : Bytes) :
    RangeInside ⟨some contents.length, contents⟩ fromStart where
  size := rfl
  offset_nonneg := le_rfl
  offset_le := Int.natCast_nonneg _
  length_nonneg _ h := by cases h
  length_le _ h := by cases h

theorem oneByte_pagesRange :
    PagesRange asciiReader ⟨some 1, [0x61]⟩ fromStart 1 :=
  (pagesRange_iff asciiReader (fromStart_inside [0x61]) (by decide)
    (by decide)).mpr ⟨rfl, by decide, _, rfl⟩

/-- The second byte of a file is not read. -/
theorem twoBytes_not_pagesRange :
    ¬ ∀ (source : RawSource) (locator : ByteRange) (length : ℤ),
      RangeInside source locator → 1 ≤ length → length ≤ maxRawReadLength →
        PagesRange asciiReader source locator length := by
  intro h
  have hinside := fromStart_inside [0x61, 0x62]
  obtain ⟨bound, pages, hpages, hconcat, -⟩ := h _ _ 1 hinside (by decide)
    (by decide)
  have hlength := eq_of_none hinside (by decide) rfl (by decide)
    (hpages (bound + 2) (by omega))
  rw [hconcat] at hlength
  exact absurd hlength (by decide)

end ApexForensic.Context.RawReads
