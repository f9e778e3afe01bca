import ApexForensic.Prefetch.Model

/-!
# When parsing a Prefetch file ends with an artifact

Every read of the parser is behind a check of the length, so that the header
of a file is always parsed into one artifact.  Only the wrappers are not
bounded: each decompressed buffer may be a wrapper again, and a chain that does
not end runs into the recursion limit.
-/

namespace ApexForensic.Prefetch

open ApexForensic.Support ApexForensic.Domain

variable {data : Bytes}

variable (P : PrefetchPlatform)

/-- The bytes of a range that lies inside the data. -/
def Reads (data : Bytes) (offset length : ℕ) (raw : Bytes) : Prop :=
  offset + length ≤ data.length ∧ raw = slice data offset length

/-- A buffer in a wrapper that is decompressed. -/
def Wraps (data inner : Bytes) : Prop :=
  mamSignature <+: data ∧ 8 ≤ data.length ∧ data[3]? = some 4 ∧
    Registry.littleEndian (slice data 4 4) ≤ maxMamDeclaredSize ∧
      ∃ decompress, P.decompressor = some decompress ∧
        decompress (data.drop 8) = some inner ∧
          inner.length = Registry.littleEndian (slice data 4 4)

/-- A number of wrappers around a buffer that is in none. -/
inductive UnwrapsTo : ℕ → Bytes → Bytes → Prop
  | done {data : Bytes} (h : ∀ inner, ¬ Wraps P data inner) :
      UnwrapsTo 0 data data
  | unwrap {depth : ℕ} {data inner final : Bytes} (h : Wraps P data inner)
      (hinner : UnwrapsTo depth inner final) :
      UnwrapsTo (depth + 1) data final

/-- What an artifact reports is read inside the file's wrapper and the data in
it, and only a supported header with a run time is a success. -/
structure ReadsInside (file final : Bytes) (artifact : Artifact) : Prop where
  formatVersion : ∀ value, artifact.fields.formatVersion = some value →
    ∃ raw, Reads final 0 4 raw ∧ value = Registry.littleEndian raw
  declaredFileSize : ∀ value, artifact.fields.declaredFileSize = some value →
    ∃ raw, Reads final 0x0C 4 raw ∧ value = Registry.littleEndian raw
  executableName : ∀ name, artifact.fields.executableName = some name →
    ∃ raw, Reads final 0x10 120 raw ∧ textBeforeNul raw = some name
  prefetchHash : ∀ text, artifact.fields.prefetchHash = some text →
    ∃ raw, Reads final 0x4C 4 raw ∧
      text = upperHex8 (Registry.littleEndian raw)
  runCount : ∀ value, artifact.fields.runCount = some value →
    ∃ version offset raw, artifact.fields.formatVersion = some version ∧
      (version, offset) ∈ prefetchRunCountOffsets ∧
        Reads final offset 4 raw ∧ value = Registry.littleEndian raw
  runTimes : ∀ time ∈ artifact.fields.lastRunTimes,
    ∃ version offsets raw, artifact.fields.formatVersion = some version ∧
      (version, offsets) ∈ prefetchLastRunOffsets ∧
        time.fieldOffset ∈ offsets ∧
          Reads final time.fieldOffset time.fieldLength raw ∧
            time.rawFiletime = Registry.littleEndian raw ∧
              filetimeToUtc time.rawFiletime = some time.timestampUtc
  mamHeader : ∀ mam, artifact.fields.mamHeader = some mam →
    (∀ value, mam.version = some value →
      ∃ byte, Reads file 3 1 [byte] ∧ value = byte.toNat) ∧
    ∀ value, mam.declaredDecompressedSize = some value →
      ∃ raw, Reads file 4 4 raw ∧ value = Registry.littleEndian raw
  success : artifact.parseStatus = .success →
    84 ≤ final.length ∧ slice final 4 4 = sccaSignature ∧
      (∃ version ∈ supportedPrefetchVersions,
        artifact.fields.formatVersion = some version) ∧
      artifact.fields.lastRunTimes ≠ []

/-! ## Reads behind a check -/

theorem unpackFrom_of_le {length : ℕ} {offset : ℕ}
    (h : offset + length ≤ data.length) :
    unpackFrom length data offset =
      .ok (Registry.littleEndian (slice data offset length)) := by
  rw [unpackFrom, if_pos h]

theorem readU32_spec (data : Bytes) (offset : ℕ) :
    ∃ value, readU32 data offset = .ok value ∧
      (offset + 4 ≤ data.length →
        value = some (Registry.littleEndian (slice data offset 4))) ∧
      ∀ number, value = some number →
        ∃ raw, Reads data offset 4 raw ∧
          number = Registry.littleEndian raw := by
  rw [readU32]
  by_cases h : data.length < offset + 4
  · rw [if_pos h]
    refine ⟨none, rfl, fun hle => ?_, fun number hnumber => ?_⟩
    · exact absurd hle (Nat.not_le_of_lt h)
    · cases hnumber
  · have hle := Nat.le_of_not_lt h
    rw [if_neg h, unpackFrom_of_le hle]
    refine ⟨_, rfl, fun _ => rfl, fun number hnumber => ?_⟩
    exact ⟨_, ⟨hle, rfl⟩, (Option.some.inj hnumber).symm⟩

theorem readUtf16Fixed_spec {offset charCount : ℕ} {name : String}
    (h : readUtf16Fixed data offset charCount = some name) :
    ∃ raw, Reads data offset (charCount * 2) raw ∧
      textBeforeNul raw = some name := by
  rw [readUtf16Fixed] at h
  by_cases hlt : data.length < offset + charCount * 2
  · rw [if_pos hlt] at h
    cases h
  · rw [if_neg hlt] at h
    exact ⟨_, ⟨Nat.le_of_not_lt hlt, rfl⟩, h⟩

theorem runTimesAt_spec (data : Bytes) (offsets : List ℕ) :
    ∃ values, runTimesAt data offsets = .ok values ∧
      ∀ time ∈ values, time.fieldOffset ∈ offsets ∧
        ∃ raw, Reads data time.fieldOffset time.fieldLength raw ∧
          time.rawFiletime = Registry.littleEndian raw ∧
            filetimeToUtc time.rawFiletime = some time.timestampUtc := by
  induction offsets with
  | nil => exact ⟨[], rfl, fun _ h => absurd h List.not_mem_nil⟩
  | cons offset offsets ih =>
      obtain ⟨values, hvalues, hall⟩ := ih
      have hskip : ∀ time ∈ values, time.fieldOffset ∈ offset :: offsets ∧
          ∃ raw, Reads data time.fieldOffset time.fieldLength raw ∧
            time.rawFiletime = Registry.littleEndian raw ∧
              filetimeToUtc time.rawFiletime = some time.timestampUtc :=
        fun time htime => ⟨List.mem_cons_of_mem _ (hall time htime).1,
          (hall time htime).2⟩
      rw [runTimesAt]
      by_cases h : data.length < offset + 8
      · rw [if_pos h]
        exact ⟨values, hvalues, hskip⟩
      · have hle := Nat.le_of_not_lt h
        rw [if_neg h, unpackFrom_of_le hle, ok_bind]
        cases hparsed : filetimeToUtc
            (Registry.littleEndian (slice data offset 8)) with
        | none => exact ⟨values, hvalues, hskip⟩
        | some parsed =>
            refine ⟨_ :: values, by rw [hvalues]; rfl, ?_⟩
            refine List.forall_mem_cons.mpr ⟨?_, hskip⟩
            exact ⟨List.mem_cons_self, _, ⟨hle, rfl⟩, rfl, hparsed⟩

theorem atVersion_spec {α : Type} (table : List (ℕ × α)) {version : ℕ}
    (h : version ∈ table.map Prod.fst) :
    ∃ value, atVersion table version = .ok value ∧
      (version, value) ∈ table := by
  rw [atVersion]
  induction table with
  | nil => exact absurd h List.not_mem_nil
  | cons entry table ih =>
      obtain ⟨key, value⟩ := entry
      rw [List.lookup_cons]
      by_cases hkey : version = key
      · subst hkey
        rw [beq_self_eq_true]
        exact ⟨value, rfl, List.mem_cons_self⟩
      · rw [beq_eq_false_iff_ne.mpr hkey]
        obtain ⟨found, hfound, hmem⟩ :=
          ih ((List.mem_cons.mp h).resolve_left hkey)
        exact ⟨found, hfound, List.mem_cons_of_mem _ hmem⟩

/-! ## The header -/

theorem unsupportedPrefetchArtifact_readsInside (originalName : String)
    (rawLocator : RawLocator) (warning : Warning) {status : ParseStatus}
    (hstatus : status ≠ .success) (subtype unsupportedReason : String)
    {formatVersion : Option ℕ} (file : Bytes)
    (hversion : ∀ value, formatVersion = some value →
      ∃ raw, Reads data 0 4 raw ∧ value = Registry.littleEndian raw) :
    ReadsInside file data (unsupportedPrefetchArtifact originalName rawLocator
      warning status subtype unsupportedReason formatVersion data.length) where
  formatVersion := hversion
  declaredFileSize := nofun
  executableName := nofun
  prefetchHash := nofun
  runCount := nofun
  runTimes := fun _ h => absurd h List.not_mem_nil
  mamHeader := nofun
  success := fun h => absurd h hstatus

theorem parseHeader_spec (originalName : String) (rawLocator : RawLocator)
    (data : Bytes) :
    ∃ artifact, parseHeader originalName rawLocator data = .ok artifact ∧
      ReadsInside data data artifact := by
  rw [parseHeader]
  by_cases hshort : data.length < 84
  · rw [if_pos hshort]
    exact ⟨_, rfl, unsupportedPrefetchArtifact_readsInside originalName
      rawLocator _ (by decide) _ _ data (by simp)⟩
  · obtain ⟨version, hversion, -, hversionRead⟩ := readU32_spec data 0
    rw [if_neg hshort]
    simp only [hversion, ok_bind]
    by_cases hsignature : slice data 4 4 ≠ sccaSignature
    · rw [if_pos hsignature]
      exact ⟨_, rfl, unsupportedPrefetchArtifact_readsInside originalName
        rawLocator _ (by decide) _ _ data hversionRead⟩
    · rw [if_neg hsignature]
      cases hfilter : version.filter (· ∈ supportedPrefetchVersions) with
      | none =>
          exact ⟨_, rfl, unsupportedPrefetchArtifact_readsInside originalName
            rawLocator _ (by decide) _ _ data hversionRead⟩
      | some supported =>
          obtain ⟨rfl, hmem⟩ := Option.filter_eq_some_iff.mp hfilter
          have hmem : supported ∈ supportedPrefetchVersions :=
            of_decide_eq_true hmem
          obtain ⟨hash, hhash, hhashRead, -⟩ := readU32_spec data 0x4C
          obtain rfl := hhashRead (by omega)
          obtain ⟨size, hsize, -, hsizeRead⟩ := readU32_spec data 0x0C
          obtain ⟨offset, hoffset, hoffsetMem⟩ :=
            atVersion_spec prefetchRunCountOffsets hmem
          obtain ⟨count, hcount, -, hcountRead⟩ := readU32_spec data offset
          obtain ⟨offsets, hoffsets, hoffsetsMem⟩ :=
            atVersion_spec prefetchLastRunOffsets hmem
          obtain ⟨times, htimes, htimesRead⟩ := runTimesAt_spec data offsets
          have hlast : lastRunTimes data supported = .ok times := by
            rw [lastRunTimes, hoffsets, ok_bind, htimes]
          simp only [hhash, hsize, hoffset, hcount, hlast, ok_bind, formatHex8]
          refine ⟨_, rfl, ?_⟩
          constructor
          · exact hversionRead
          · exact hsizeRead
          · intro name hname
            exact readUtf16Fixed_spec hname
          · intro text htext
            exact ⟨_, ⟨by omega, rfl⟩, (Option.some.inj htext).symm⟩
          · intro value hvalue
            obtain ⟨raw, hraw, hle⟩ := hcountRead value hvalue
            exact ⟨supported, offset, raw, rfl, hoffsetMem, hraw, hle⟩
          · intro time htime
            obtain ⟨hin, raw, hraw, hfiletime⟩ := htimesRead time htime
            exact ⟨supported, offsets, raw, rfl, hoffsetsMem, hin, hraw,
              hfiletime⟩
          · rintro _ ⟨⟩
          · intro hstatus
            refine ⟨Nat.le_of_not_lt hshort, not_not.mp hsignature,
              ⟨supported, hmem, rfl⟩, ?_⟩
            rintro hnil
            change times = [] at hnil
            subst hnil
            change ParseStatus.partlyParsed = .success at hstatus
            cases hstatus

/-! ## The wrapper -/

theorem mamOutcome_eq_some_iff {version declaredSize : Option ℕ}
    {payload inner : Bytes} :
    (mamOutcome P version declaredSize payload).2.2.2 = some inner ↔
      version = some 4 ∧ ∃ size, declaredSize = some size ∧
        size ≤ maxMamDeclaredSize ∧
          ∃ decompress, P.decompressor = some decompress ∧
            decompress payload = some inner ∧ inner.length = size := by
  rw [mamOutcome.eq_def]
  cases declaredSize with
  | none => simp
  | some size =>
      by_cases hsize : maxMamDeclaredSize < size
      · simp only [if_pos hsize]
        refine iff_of_false nofun ?_
        rintro ⟨-, size', heq, hle, -⟩
        obtain rfl := Option.some.inj heq
        exact Nat.not_lt_of_le hle hsize
      · simp only [if_neg hsize]
        by_cases hversion : version = some 4
        · rw [if_neg (not_not_intro hversion)]
          cases hdecompressor : P.decompressor with
          | none => simp
          | some decompress =>
              dsimp only
              cases hout : decompress payload with
              | none => simp [hout]
              | some out =>
                  dsimp only
                  by_cases hlimit : maxMamDeclaredSize < out.length
                  · rw [if_pos hlimit]
                    refine iff_of_false nofun ?_
                    rintro ⟨-, size', heq, hle, f, hf, hinner, hlength⟩
                    obtain rfl := Option.some.inj heq
                    obtain rfl := Option.some.inj hf
                    obtain rfl := Option.some.inj (hout.symm.trans hinner)
                    omega
                  · rw [if_neg hlimit]
                    by_cases hlength : out.length ≠ size
                    · rw [if_pos hlength]
                      refine iff_of_false nofun ?_
                      rintro ⟨-, size', heq, hle, f, hf, hinner, hlength'⟩
                      obtain rfl := Option.some.inj heq
                      obtain rfl := Option.some.inj hf
                      obtain rfl := Option.some.inj (hout.symm.trans hinner)
                      exact hlength hlength'
                    · rw [if_neg hlength]
                      constructor
                      · intro heq
                        obtain rfl := Option.some.inj heq
                        exact ⟨hversion, size, rfl, Nat.le_of_not_lt hsize,
                          decompress, rfl, hout, not_not.mp hlength⟩
                      · rintro ⟨-, size', -, -, f, hf, hinner, -⟩
                        obtain rfl := Option.some.inj hf
                        exact hout.symm.trans hinner
        · rw [if_pos hversion]
          exact iff_of_false nofun fun h => hversion h.1

/-- The wrapper never raises, reads its header inside the file, and gives a
buffer exactly when the file wraps it. -/
theorem decompressMamWrapper_spec (hsignature : mamSignature <+: data) :
    ∃ mam out, decompressMamWrapper P data = .ok (mam, out) ∧
      (∀ inner, out = some inner ↔ Wraps P data inner) ∧
      (∀ value, mam.version = some value →
        ∃ byte, Reads data 3 1 [byte] ∧ value = byte.toNat) ∧
      ∀ value, mam.declaredDecompressedSize = some value →
        ∃ raw, Reads data 4 4 raw ∧ value = Registry.littleEndian raw := by
  have hdeclared : ∃ declared, mamDeclaredSize data = .ok declared ∧
      ∀ size, declared = some size ↔ 8 ≤ data.length ∧
        size = Registry.littleEndian (slice data 4 4) := by
    rw [mamDeclaredSize]
    by_cases h : 8 ≤ data.length
    · rw [if_pos h, unpackFrom_of_le h]
      refine ⟨_, rfl, fun size => ?_⟩
      rw [Option.some.injEq, eq_comm]
      exact ⟨fun heq => ⟨h, heq⟩, And.right⟩
    · rw [if_neg h]
      exact ⟨none, rfl, fun size => iff_of_false nofun fun hsize => h hsize.1⟩
  obtain ⟨declared, hok, hdeclared⟩ := hdeclared
  have hversion : data[3]?.map UInt8.toNat = some 4 ↔ data[3]? = some 4 := by
    rw [Option.map_eq_some_iff]
    constructor
    · rintro ⟨byte, hbyte, heq⟩
      rw [hbyte, show byte = 4 from UInt8.toNat_inj.mp heq]
    · intro hbyte
      exact ⟨4, hbyte, rfl⟩
  rw [decompressMamWrapper]
  simp only [hok, ok_bind]
  refine ⟨_, _, rfl, fun inner => ?_, ?_, ?_⟩
  · rw [mamOutcome_eq_some_iff, hversion, Wraps]
    constructor
    · rintro ⟨hfour, size, hsize, hle, decompress, hdecompress, hinner,
        hlength⟩
      obtain ⟨hlong, rfl⟩ := (hdeclared size).mp hsize
      exact ⟨hsignature, hlong, hfour, hle, decompress, hdecompress, hinner,
        hlength⟩
    · rintro ⟨-, hlong, hfour, hle, decompress, hdecompress, hinner, hlength⟩
      exact ⟨hfour, _, (hdeclared _).mpr ⟨hlong, rfl⟩, hle, decompress,
        hdecompress, hinner, hlength⟩
  · intro value hvalue
    obtain ⟨byte, hbyte, rfl⟩ := Option.map_eq_some_iff.mp hvalue
    obtain ⟨hlt, hget⟩ := List.getElem?_eq_some_iff.mp hbyte
    refine ⟨byte, ⟨hlt, ?_⟩, rfl⟩
    rw [slice, List.drop_eq_getElem_cons hlt, hget]
    rfl
  · intro value hvalue
    obtain ⟨hlong, rfl⟩ := (hdeclared value).mp hvalue
    exact ⟨_, ⟨hlong, rfl⟩, rfl⟩

/-! ## The chain of wrappers -/

theorem Wraps.unique {inner inner' : Bytes} (h : Wraps P data inner)
    (h' : Wraps P data inner') : inner = inner' := by
  obtain ⟨-, -, -, -, f, hf, hdata, -⟩ := h
  obtain ⟨-, -, -, -, g, hg, hdata', -⟩ := h'
  obtain rfl := Option.some.inj (hf.symm.trans hg)
  exact Option.some.inj (hdata.symm.trans hdata')

theorem mamArtifact_readsInside (originalName : String)
    (rawLocator : RawLocator) {mam : MamHeader}
    (hversion : ∀ value, mam.version = some value →
      ∃ byte, Reads data 3 1 [byte] ∧ value = byte.toNat)
    (hdeclared : ∀ value, mam.declaredDecompressedSize = some value →
      ∃ raw, Reads data 4 4 raw ∧ value = Registry.littleEndian raw) :
    ReadsInside data data
      (mamArtifact originalName rawLocator mam data) where
  formatVersion := nofun
  declaredFileSize := nofun
  executableName := nofun
  prefetchHash := nofun
  runCount := nofun
  runTimes := fun _ h => absurd h List.not_mem_nil
  mamHeader := by
    intro mam' h
    obtain rfl := Option.some.inj h
    exact ⟨hversion, hdeclared⟩
  success := by
    intro h
    change (if mam.decompressionStatus = "CORRUPT" then ParseStatus.corrupt
      else .unsupported) = .success at h
    split at h <;> cases h

theorem makeRawLocator_spec (data : Bytes) (contentSha256 : String)
    (fieldLength : ℕ) :
    ∃ rawLocator, makeRawLocator (min (max data.length 1) 1048576)
      contentSha256 fieldLength = .ok rawLocator := by
  rw [makeRawLocator, if_neg (by omega)]
  exact ⟨_, rfl⟩

theorem parsePrefetch_cases (originalName : String) (frames : ℕ)
    (data : Bytes) :
    (∃ inner mam, Wraps P data inner ∧
      (∀ value, mam.version = some value →
        ∃ byte, Reads data 3 1 [byte] ∧ value = byte.toNat) ∧
      (∀ value, mam.declaredDecompressedSize = some value →
        ∃ raw, Reads data 4 4 raw ∧ value = Registry.littleEndian raw) ∧
      parsePrefetch P originalName (frames + 1) data = (do
        let nested ← parsePrefetch P originalName frames inner
        return { nested with
          fields := { nested.fields with
            mamHeader := some mam
            compression := some "MAM"
            compressedFileSize := some data.length
            decompressedFileSize := some inner.length
            decompressedBufferHash := some (P.sha256 inner)
            decompressionStatus := some "DECOMPRESSED" } })) ∨
    (∀ inner, ¬ Wraps P data inner) ∧ ∃ artifact,
      parsePrefetch P originalName (frames + 1) data = .ok artifact ∧
        ReadsInside data data artifact := by
  obtain ⟨rawLocator, hlocator⟩ := makeRawLocator_spec data
    (P.sha256 (data.take 1048576)) (min data.length 1048576)
  rw [parsePrefetch, hlocator, ok_bind]
  by_cases hsignature : mamSignature <+: data
  · obtain ⟨mam, out, hmam, hout, hversion, hdeclared⟩ :=
      decompressMamWrapper_spec P hsignature
    rw [if_pos (List.isPrefixOf_iff_prefix.mpr hsignature), hmam, ok_bind]
    cases out with
    | none =>
        right
        refine ⟨fun inner hwraps => ?_, _, rfl,
          mamArtifact_readsInside originalName rawLocator hversion hdeclared⟩
        cases (hout inner).mpr hwraps
    | some inner =>
        left
        exact ⟨inner, mam, (hout inner).mp rfl, hversion, hdeclared, rfl⟩
  · right
    rw [if_neg fun h => hsignature (List.isPrefixOf_iff_prefix.mp h)]
    refine ⟨fun inner hwraps => hsignature hwraps.1, ?_⟩
    exact parseHeader_spec originalName rawLocator data

theorem parsePrefetch_of_unwrapsTo (originalName : String) {depth : ℕ}
    {final : Bytes} (h : UnwrapsTo P depth data final) {frames : ℕ}
    (hframes : depth < frames) :
    ∃ artifact, parsePrefetch P originalName frames data = .ok artifact ∧
      ReadsInside data final artifact := by
  induction h generalizing frames with
  | @done data hnone =>
      obtain ⟨frames, rfl⟩ := Nat.exists_eq_add_one_of_ne_zero
        (Nat.ne_zero_of_lt hframes)
      rcases parsePrefetch_cases P originalName frames data with
        ⟨inner, _, hwraps, -⟩ | ⟨-, hartifact⟩
      · exact absurd hwraps (hnone inner)
      · exact hartifact
  | @unwrap depth data inner final hwraps hinner ih =>
      obtain ⟨frames, rfl⟩ := Nat.exists_eq_add_one_of_ne_zero
        (Nat.ne_zero_of_lt hframes)
      rcases parsePrefetch_cases P originalName frames data with
        ⟨inner', mam, hwraps', hversion, hdeclared, hparse⟩ | ⟨hnone, -⟩
      · obtain rfl := hwraps.unique P hwraps'
        obtain ⟨nested, hnested, hreads⟩ := ih (Nat.lt_of_succ_lt_succ hframes)
        rw [hparse, hnested, ok_bind]
        refine ⟨_, rfl, ?_⟩
        constructor
        · exact hreads.formatVersion
        · exact hreads.declaredFileSize
        · exact hreads.executableName
        · exact hreads.prefetchHash
        · exact hreads.runCount
        · exact hreads.runTimes
        · intro mam' h
          obtain rfl := Option.some.inj h
          exact ⟨hversion, hdeclared⟩
        · exact hreads.success
      · exact absurd hwraps (hnone inner)

theorem exists_unwrapsTo_of_parsePrefetch {originalName : String} {frames : ℕ}
    {artifact : Artifact}
    (h : parsePrefetch P originalName frames data = .ok artifact) :
    ∃ depth final, depth < frames ∧ UnwrapsTo P depth data final := by
  induction frames generalizing data artifact with
  | zero => cases h
  | succ frames ih =>
      rcases parsePrefetch_cases P originalName frames data with
        ⟨inner, mam, hwraps, -, -, hparse⟩ | ⟨hnone, -⟩
      · rw [hparse] at h
        obtain ⟨nested, hnested, -⟩ := bind_ok h
        obtain ⟨depth, final, hlt, hinner⟩ := ih hnested
        exact ⟨depth + 1, final, Nat.succ_lt_succ hlt, .unwrap hwraps hinner⟩
      · exact ⟨0, data, Nat.succ_pos frames, .done hnone⟩

/-- Parsing ends with an artifact, whose fields are read inside the data, when
the chain of wrappers ends before the recursion limit, and only then. -/
theorem parsePrefetch_ends_iff (originalName : String) (frames : ℕ)
    (data : Bytes) :
    (∃ artifact, parsePrefetch P originalName frames data = .ok artifact ∧
        ∃ depth final, UnwrapsTo P depth data final ∧
          ReadsInside data final artifact) ↔
      ∃ depth final, depth < frames ∧ UnwrapsTo P depth data final := by
  constructor
  · rintro ⟨artifact, hparse, -⟩
    exact exists_unwrapsTo_of_parsePrefetch P hparse
  · rintro ⟨depth, final, hlt, hchain⟩
    obtain ⟨artifact, hparse, hreads⟩ :=
      parsePrefetch_of_unwrapsTo P originalName hchain hlt
    exact ⟨artifact, hparse, depth, final, hchain, hreads⟩

/-! ## A wrapper around itself -/

/-- A wrapper that declares the size of itself. -/
def selfWrapper : Bytes :=
  mamSignature ++ [4] ++ [12, 0, 0, 0] ++ [0, 0, 0, 0]

/-- A decompressor for whose output its input is the payload. -/
def selfPlatform : PrefetchPlatform :=
  { sha256 := fun _ => ""
    decompressor := some fun _ => some selfWrapper
    decompressorVersion := some "3.0" }

theorem selfWrapper_wraps : Wraps selfPlatform selfWrapper selfWrapper :=
  ⟨by decide, by decide, by decide, by decide, _, rfl, rfl, by decide⟩

theorem parsePrefetch_selfWrapper (originalName : String) (frames : ℕ) :
    parsePrefetch selfPlatform originalName frames selfWrapper =
      .error .recursionError := by
  induction frames with
  | zero => rfl
  | succ frames ih =>
      rcases parsePrefetch_cases selfPlatform originalName frames
        selfWrapper with ⟨inner, mam, hwraps, -, -, hparse⟩ | ⟨hnone, -⟩
      · obtain rfl := hwraps.unique selfPlatform selfWrapper_wraps
        rw [hparse, ih]
        rfl
      · exact absurd selfWrapper_wraps (hnone selfWrapper)

/-- Twelve bytes that decompress to themselves exhaust every recursion
limit, the interpreter's usual one too. -/
theorem parsePrefetch_recursionError :
    parsePrefetch selfPlatform "SELF.EXE-00000000.pf" 1000 selfWrapper =
        .error .recursionError ∧
      ∀ frames, parsePrefetch selfPlatform "SELF.EXE-00000000.pf" frames
        selfWrapper = .error .recursionError :=
  ⟨parsePrefetch_selfWrapper _ _, parsePrefetch_selfWrapper _⟩

end ApexForensic.Prefetch
