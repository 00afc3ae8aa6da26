import DpuTest.Lib.Buffer
import DpuTest.Lib.Strto

/-!
# The hand-over of the DMA descriptor

The host writes the export descriptor of its buffer to one file, and the address and the
length of the buffer to another one, in decimal and a line each.  The DPU reads both.  It
reads at most `RECV_BUF_SIZE` bytes of the descriptor, and says so in `export_desc_len`; a
number that is `ULLONG_MAX` is taken for an error of `strtoull`.

`saveConfigInfoToBuffers_written` is what the DPU reads of what the host has written.  So the
descriptor comes through as a whole if and only if it is not longer than `RECV_BUF_SIZE`
(`handOver_iff`).
-/

namespace DpuTest.Dma

open Lib

def RECV_BUF_SIZE : Nat := 512

/-- The size of `export_desc` in `dma_copy_dpu`. -/
def EXPORT_DESC_SIZE : Nat := 1024

/-- The contents of the two files. -/
structure ConfigFiles where
  exportDesc : List UInt8
  bufferInfo : List Char

/-- Which calls on the two files succeed.  `transfer` is the `fwrite` of the host and the
`fread` of the DPU. -/
structure FileCalls where
  openDesc : Bool
  seekEnd : Bool
  tell : Bool
  seekSet : Bool
  transfer : Bool
  openInfo : Bool

/-- No error. -/
def FileCalls.good : FileCalls where
  openDesc := true
  seekEnd := true
  tell := true
  seekSet := true
  transfer := true
  openInfo := true

/-! ## The host -/

/-- What the two `fprintf` calls write. -/
def bufferInfoText (bufferAddr bufferLen : UInt64) : List Char :=
  Nat.toDigits 10 bufferAddr.toNat ++ '\n' :: Nat.toDigits 10 bufferLen.toNat

/-- `save_config_info_to_files`: the files, or what is logged in front of
`DOCA_ERROR_IO_FAILED`. -/
def saveConfigInfoToFiles (calls : FileCalls) (exportDesc : List UInt8)
    (bufferAddr bufferLen : UInt64) : Except String ConfigFiles :=
  if !calls.openDesc then .error "Failed to create the DMA copy file"
  else if !calls.transfer then .error "Failed to write all data into the file"
  else if !calls.openInfo then .error "Failed to create the DMA copy file"
  else .ok { exportDesc := exportDesc, bufferInfo := bufferInfoText bufferAddr bufferLen }

/-! ## The DPU -/

/-- A line up to its newline, which belongs to it, or up to `room` characters. -/
def takeLine : Nat → List Char → List Char × List Char
  | 0, text => ([], text)
  | _ + 1, [] => ([], [])
  | room + 1, c :: text =>
    if c = '\n' then ([c], text)
    else
      let line := takeLine room text
      (c :: line.1, line.2)

/-- `fgets(buffer, size, fp)`: what is put in front of the terminator, and what is left of
the file. -/
def fgets (size : Nat) (text : List Char) : Option (List Char × List Char) :=
  if text = [] then none else some (takeLine (size - 1) text)

/-- The number in the next line of the second file. -/
def readNumber (what : String) (text : List Char) : Except String (UInt64 × List Char) :=
  match fgets RECV_BUF_SIZE text with
  | none => .error ("Failed to read the source (host) buffer " ++ what)
  | some (buffer, rest) =>
    let convertValue := strtoullBase0 buffer
    if convertValue = UInt64.ofNat ULLONG_MAX then
      .error ("Failed to read the source (host) buffer " ++ what ++ ". Data is corrupted")
    else .ok (convertValue, rest)

/-- What the DPU has got. -/
structure Config where
  exportDesc : Buffer UInt8 EXPORT_DESC_SIZE
  exportDescLen : Nat
  remoteAddr : UInt64
  remoteAddrLen : UInt64

/-- `file_size`, after the test for `RECV_BUF_SIZE`. -/
def readSize (fileSize : Nat) : Nat :=
  if RECV_BUF_SIZE < fileSize then RECV_BUF_SIZE else fileSize

theorem readSize_le (fileSize : Nat) : readSize fileSize ≤ RECV_BUF_SIZE := by
  unfold readSize
  split <;> omega

/-- What is read fits in the caller's array. -/
theorem length_take_readSize_le (content : List UInt8) :
    0 + (content.take (readSize content.length)).length ≤ EXPORT_DESC_SIZE := by
  have hle := readSize_le content.length
  have hsize : RECV_BUF_SIZE ≤ EXPORT_DESC_SIZE := by decide
  rw [List.length_take]
  omega

/-- `save_config_info_to_buffers`: what the caller's variables hold, or what is logged in
front of `DOCA_ERROR_IO_FAILED`. -/
def saveConfigInfoToBuffers (calls : FileCalls) (exportDescFilePath bufferInfoFilePath : String)
    (files : ConfigFiles) (exportDesc : Buffer UInt8 EXPORT_DESC_SIZE) : Except String Config :=
  if !calls.openDesc then .error ("Failed to open " ++ exportDescFilePath)
  else if !calls.seekEnd then .error "Failed to calculate file size"
  else if !calls.tell then .error "Failed to calculate file size"
  else if !calls.seekSet then .error "Failed to calculate file size"
  else if !calls.transfer then .error "Failed to allocate memory for source buffer"
  else if !calls.openInfo then .error ("Failed to open " ++ bufferInfoFilePath)
  else
    match readNumber "address" files.bufferInfo with
    | .error message => .error message
    | .ok (remoteAddr, rest) =>
      match readNumber "length" rest with
      | .error message => .error message
      | .ok (remoteAddrLen, _) =>
        .ok
          { exportDesc := exportDesc.put 0 _ (length_take_readSize_le files.exportDesc)
            exportDescLen := readSize files.exportDesc.length
            remoteAddr := remoteAddr
            remoteAddrLen := remoteAddrLen }

/-- The DPU has the whole descriptor, and the address and the length of the host. -/
structure RoundTrips (exportDesc : List UInt8) (bufferAddr bufferLen : UInt64) (c : Config) :
    Prop where
  exportDescLen_eq : c.exportDescLen = exportDesc.length
  exportDesc_eq : c.exportDesc.data.take c.exportDescLen = exportDesc
  remoteAddr_eq : c.remoteAddr = bufferAddr
  remoteAddrLen_eq : c.remoteAddrLen = bufferLen

section

variable {line rest : List Char} {room : Nat} {what : String} {n : UInt64}

/-! ## Lines -/

/-- A line goes on where no newline ends it. -/
theorem takeLine_append (hline : '\n' ∉ line) (hroom : line.length ≤ room) :
    takeLine room (line ++ rest) =
      (line ++ (takeLine (room - line.length) rest).1,
        (takeLine (room - line.length) rest).2) := by
  induction line generalizing room with
  | nil => rfl
  | cons c line ih =>
    cases room with
    | zero => cases hroom
    | succ room =>
      have hc : c ≠ '\n' := fun heq => hline (heq ▸ List.mem_cons_self)
      have htail := ih (fun hmem => hline (List.mem_cons_of_mem c hmem))
        (Nat.le_of_succ_le_succ hroom)
      rw [List.cons_append, takeLine, if_neg hc, htail, List.length_cons, Nat.add_sub_add_right,
        List.cons_append]

theorem takeLine_newline (hline : '\n' ∉ line) (hroom : line.length < room) :
    takeLine room (line ++ '\n' :: rest) = (line ++ ['\n'], rest) := by
  obtain ⟨left, hleft⟩ : ∃ left, room - line.length = left + 1 :=
    ⟨room - line.length - 1, by omega⟩
  rw [takeLine_append hline (Nat.le_of_lt hroom), hleft, takeLine, if_pos rfl]

theorem takeLine_last (hline : '\n' ∉ line) (hroom : line.length ≤ room) :
    takeLine room line = (line, []) := by
  have hnil : ∀ left, takeLine left [] = ([], []) := by
    intro left
    cases left <;> rfl
  have happend : takeLine room (line ++ []) = _ := takeLine_append hline hroom
  rwa [List.append_nil, hnil, List.append_nil] at happend

/-! ## Numbers -/

theorem newline_notMem_toDigits (n : Nat) : '\n' ∉ Nat.toDigits 10 n := by
  intro hmem
  exact absurd (isDigit_of_mem_toDigits hmem) (by decide)

/-- A 64-bit number has at most twenty digits. -/
theorem length_toDigits_le (n : UInt64) : (Nat.toDigits 10 n.toNat).length ≤ 20 := by
  rw [Nat.length_toDigits_le_iff (by decide) (by decide)]
  exact Nat.lt_trans n.toNat_lt (by decide)

/-- A printed number is read back. -/
theorem strtoullBase0_printed (n : UInt64) (rest : List Char)
    (hrest : ∀ d ∈ rest.head?, isSpace d = true) :
    strtoullBase0 (Nat.toDigits 10 n.toNat ++ rest) = n :=
  UInt64.toNat_inj.mp (strtoullBase0_toDigits (Nat.le_of_lt_succ n.toNat_lt) hrest)

theorem readNumber_newline :
    readNumber what (Nat.toDigits 10 n.toNat ++ '\n' :: rest) =
      if n = UInt64.ofNat ULLONG_MAX then
        .error ("Failed to read the source (host) buffer " ++ what ++ ". Data is corrupted")
      else .ok (n, rest) := by
  have hlen := length_toDigits_le n
  have hne : Nat.toDigits 10 n.toNat ++ '\n' :: rest ≠ [] := by
    intro hnil
    exact List.cons_ne_nil _ _ (List.append_eq_nil_iff.mp hnil).2
  have hvalue : strtoullBase0 (Nat.toDigits 10 n.toNat ++ ['\n']) = n :=
    strtoullBase0_printed n _ fun d hd => by rw [← Option.some.inj hd]; decide
  rw [readNumber, fgets, if_neg hne,
    takeLine_newline (newline_notMem_toDigits _) (by rw [RECV_BUF_SIZE]; omega)]
  simp only [hvalue]

theorem readNumber_last :
    readNumber what (Nat.toDigits 10 n.toNat) =
      if n = UInt64.ofNat ULLONG_MAX then
        .error ("Failed to read the source (host) buffer " ++ what ++ ". Data is corrupted")
      else .ok (n, []) := by
  have hlen := length_toDigits_le n
  have hvalue : strtoullBase0 (Nat.toDigits 10 n.toNat) = n := by
    have h := strtoullBase0_printed n [] fun d hd => by cases hd
    rwa [List.append_nil] at h
  rw [readNumber, fgets, if_neg Nat.toDigits_ne_nil,
    takeLine_last (newline_notMem_toDigits _) (by rw [RECV_BUF_SIZE]; omega)]
  simp only [hvalue]

end

/-! ## The hand-over -/

section

variable {desc : List UInt8} {bufferAddr bufferLen : UInt64}

/-- What the host leaves in the files. -/
def writtenFiles (desc : List UInt8) (bufferAddr bufferLen : UInt64) : ConfigFiles where
  exportDesc := desc
  bufferInfo := bufferInfoText bufferAddr bufferLen

theorem saveConfigInfoToFiles_good :
    saveConfigInfoToFiles .good desc bufferAddr bufferLen =
      .ok (writtenFiles desc bufferAddr bufferLen) := rfl

/-- What the DPU has of a descriptor. -/
def received (desc : List UInt8) (bufferAddr bufferLen : UInt64)
    (exportDesc : Buffer UInt8 EXPORT_DESC_SIZE) : Config where
  exportDesc := exportDesc.put 0 _ (length_take_readSize_le desc)
  exportDescLen := readSize desc.length
  remoteAddr := bufferAddr
  remoteAddrLen := bufferLen

/-- What the DPU reads of what the host has written. -/
theorem saveConfigInfoToBuffers_written (desc : List UInt8) (bufferAddr bufferLen : UInt64)
    (descPath infoPath : String) (exportDesc : Buffer UInt8 EXPORT_DESC_SIZE) :
    saveConfigInfoToBuffers .good descPath infoPath (writtenFiles desc bufferAddr bufferLen)
        exportDesc =
      if bufferAddr = UInt64.ofNat ULLONG_MAX then
        .error "Failed to read the source (host) buffer address. Data is corrupted"
      else if bufferLen = UInt64.ofNat ULLONG_MAX then
        .error "Failed to read the source (host) buffer length. Data is corrupted"
      else .ok (received desc bufferAddr bufferLen exportDesc) := by
  have haddr : readNumber "address" (writtenFiles desc bufferAddr bufferLen).bufferInfo = _ :=
    readNumber_newline
  have hlen : readNumber "length" (Nat.toDigits 10 bufferLen.toNat) = _ := readNumber_last
  have hgood : saveConfigInfoToBuffers .good descPath infoPath
      (writtenFiles desc bufferAddr bufferLen) exportDesc =
      match readNumber "address" (writtenFiles desc bufferAddr bufferLen).bufferInfo with
      | .error message => .error message
      | .ok (remoteAddr, rest) =>
        match readNumber "length" rest with
        | .error message => .error message
        | .ok (remoteAddrLen, _) => .ok (received desc remoteAddr remoteAddrLen exportDesc) := rfl
  rw [hgood, haddr]
  by_cases hmaxAddr : bufferAddr = UInt64.ofNat ULLONG_MAX
  · rw [if_pos hmaxAddr, if_pos hmaxAddr]
    rfl
  rw [if_neg hmaxAddr, if_neg hmaxAddr]
  simp only [hlen]
  by_cases hmaxLen : bufferLen = UInt64.ofNat ULLONG_MAX
  · rw [if_pos hmaxLen, if_pos hmaxLen]
    rfl
  · rw [if_neg hmaxLen, if_neg hmaxLen]

theorem readSize_eq_min (fileSize : Nat) : readSize fileSize = min fileSize RECV_BUF_SIZE := by
  unfold readSize
  split <;> omega

theorem exportDescLen_received (exportDesc : Buffer UInt8 EXPORT_DESC_SIZE) :
    (received desc bufferAddr bufferLen exportDesc).exportDescLen =
      min desc.length RECV_BUF_SIZE := readSize_eq_min desc.length

/-- The bytes that are read stand at the front of the caller's array. -/
theorem received_take (exportDesc : Buffer UInt8 EXPORT_DESC_SIZE) :
    (received desc bufferAddr bufferLen exportDesc).exportDesc.data.take (readSize desc.length) =
      desc.take RECV_BUF_SIZE := by
  have hlen : (desc.take (readSize desc.length)).length = readSize desc.length := by
    rw [List.length_take, readSize_eq_min]
    omega
  have htake : (writeAt exportDesc.data 0 (desc.take (readSize desc.length))).take
      (0 + (desc.take (readSize desc.length)).length) =
      exportDesc.data.take 0 ++ desc.take (readSize desc.length) :=
    take_writeAt_end (by rw [exportDesc.length_data]; exact length_take_readSize_le desc)
  rw [hlen, Nat.zero_add, List.take_zero, List.nil_append] at htake
  refine htake.trans ?_
  rw [readSize_eq_min]
  by_cases hle : desc.length ≤ RECV_BUF_SIZE
  · rw [Nat.min_eq_left hle, List.take_length, List.take_of_length_le hle]
  · rw [Nat.min_eq_right (by omega)]

/-- A descriptor comes through as a whole if it fits in `RECV_BUF_SIZE` bytes. -/
theorem roundTrips_received_iff (exportDesc : Buffer UInt8 EXPORT_DESC_SIZE) :
    RoundTrips desc bufferAddr bufferLen (received desc bufferAddr bufferLen exportDesc) ↔
      desc.length ≤ RECV_BUF_SIZE := by
  constructor
  · intro h
    have hlen : readSize desc.length = desc.length := h.exportDescLen_eq
    rw [← hlen]
    exact readSize_le desc.length
  · intro hle
    exact
      { exportDescLen_eq := by
          show readSize desc.length = desc.length
          rw [readSize_eq_min, Nat.min_eq_left hle]
        exportDesc_eq := (received_take exportDesc).trans (List.take_of_length_le hle)
        remoteAddr_eq := rfl
        remoteAddrLen_eq := rfl }

/-- The hand-over fails or comes through as a whole if and only if the descriptor fits or the
address is the one that is taken for an error. -/
theorem handOver_iff (descPath infoPath : String) (exportDesc : Buffer UInt8 EXPORT_DESC_SIZE)
    (hlen : bufferLen ≠ UInt64.ofNat ULLONG_MAX) :
    (∀ c, saveConfigInfoToBuffers .good descPath infoPath
        (writtenFiles desc bufferAddr bufferLen) exportDesc = .ok c →
      RoundTrips desc bufferAddr bufferLen c) ↔
      desc.length ≤ RECV_BUF_SIZE ∨ bufferAddr = UInt64.ofNat ULLONG_MAX := by
  rw [saveConfigInfoToBuffers_written]
  by_cases haddr : bufferAddr = UInt64.ofNat ULLONG_MAX
  · rw [if_pos haddr]
    exact ⟨fun _ => Or.inr haddr, fun _ c hc => by cases hc⟩
  · rw [if_neg haddr, if_neg hlen]
    constructor
    · intro h
      exact Or.inl ((roundTrips_received_iff exportDesc).mp (h _ rfl))
    · rintro (hle | hmax) c hc
      · rw [← Except.ok.inj hc]
        exact (roundTrips_received_iff exportDesc).mpr hle
      · exact absurd hmax haddr

/-- What the host writes, the DPU reads: the address, the length, and as much of the
descriptor as `RECV_BUF_SIZE` lets through.  The address `ULLONG_MAX` is an error. -/
theorem handOver_capped (descPath infoPath : String) (exportDesc : Buffer UInt8 EXPORT_DESC_SIZE)
    (desc : List UInt8) (bufferAddr bufferLen : UInt64)
    (hlen : bufferLen ≠ UInt64.ofNat ULLONG_MAX) :
    ∃ files, saveConfigInfoToFiles .good desc bufferAddr bufferLen = .ok files ∧
      (bufferAddr = UInt64.ofNat ULLONG_MAX → ∃ message,
        saveConfigInfoToBuffers .good descPath infoPath files exportDesc = .error message) ∧
      (bufferAddr ≠ UInt64.ofNat ULLONG_MAX → ∃ c,
        saveConfigInfoToBuffers .good descPath infoPath files exportDesc = .ok c ∧
        c.exportDescLen = min desc.length RECV_BUF_SIZE ∧
        c.exportDesc.data.take c.exportDescLen = desc.take RECV_BUF_SIZE ∧
        c.remoteAddr = bufferAddr ∧ c.remoteAddrLen = bufferLen) := by
  refine ⟨writtenFiles desc bufferAddr bufferLen, rfl, fun haddr => ?_, fun haddr => ?_⟩
  · rw [saveConfigInfoToBuffers_written, if_pos haddr]
    exact ⟨_, rfl⟩
  · rw [saveConfigInfoToBuffers_written, if_neg haddr, if_neg hlen]
    exact ⟨received desc bufferAddr bufferLen exportDesc, rfl,
      exportDescLen_received exportDesc, received_take exportDesc, rfl, rfl⟩

theorem handOver_capped_small :
    ∃ files, saveConfigInfoToFiles .good [1, 2, 3] 4096 64 = .ok files ∧
      ∃ c, saveConfigInfoToBuffers .good "desc" "info" files (Buffer.zeroed EXPORT_DESC_SIZE)
          = .ok c ∧ c.exportDescLen = 3 ∧ c.remoteAddr = 4096 ∧ c.remoteAddrLen = 64 := by
  obtain ⟨files, hwritten, -, hread⟩ := handOver_capped "desc" "info"
    (Buffer.zeroed EXPORT_DESC_SIZE) [1, 2, 3] 4096 64 (by decide)
  obtain ⟨c, hc, hlen, -, haddr, hbuf⟩ := hread (by decide)
  exact ⟨files, hwritten, c, hc, hlen, haddr, hbuf⟩

/-- Of 513 bytes the DPU reports 512, and success. -/
theorem exists_not_roundTrips :
    ∃ files c, saveConfigInfoToFiles .good (List.replicate 513 7) 4096 64 = .ok files ∧
      saveConfigInfoToBuffers .good "desc" "info" files (Buffer.zeroed EXPORT_DESC_SIZE) = .ok c ∧
      c.exportDescLen = 512 ∧ ¬ RoundTrips (List.replicate 513 7) 4096 64 c := by
  have hread := saveConfigInfoToBuffers_written (List.replicate 513 7) 4096 64 "desc" "info"
    (Buffer.zeroed EXPORT_DESC_SIZE)
  rw [if_neg (by decide), if_neg (by decide)] at hread
  refine ⟨writtenFiles (List.replicate 513 7) 4096 64,
    received (List.replicate 513 7) 4096 64 (Buffer.zeroed EXPORT_DESC_SIZE),
    saveConfigInfoToFiles_good, hread, ?_, ?_⟩
  · rw [exportDescLen_received, List.length_replicate]
    decide
  · rw [roundTrips_received_iff, List.length_replicate]
    decide

end

end DpuTest.Dma
