import LibraLive.Java
import LibraLive.Okhttp3.Huffman

/-!
# `Hpack`

The header compression of HTTP/2, `internal/http2/Hpack.java`: the static table, the dynamic table that both sides keep in
an array which is filled from the end, the `Reader` and the `Writer`. The writer's buffer is the list of the bytes it appends
to it, the reader's source the list of the bytes that are left.
-/

namespace LibraLive

namespace Hpack

open Java

/-- The `IOException`s of `Hpack` and of its source. -/
inductive IOError where
  /-- `EOFException`. -/
  | eof
  /-- `"index == 0"`. -/
  | indexZero
  /-- `"Header index too large " + index`. -/
  | headerIndexTooLarge (index : Int)
  /-- `"Invalid dynamic table size update " + maxDynamicTableByteCount`. -/
  | invalidSizeUpdate (size : Int)
  /-- `"PROTOCOL_ERROR response malformed: mixed case name: " + name`. -/
  | mixedCaseName (name : List UInt8)
  deriving DecidableEq, Repr

/-- What a method gives or throws. -/
abbrev Result (α : Type) := Except (Throwable IOError) α

/-- The bytes of an ASCII string. -/
def ascii (s : String) : List UInt8 := s.toList.map fun c => UInt8.ofNat c.toNat

/-- `Header`. -/
structure Header where
  name : List UInt8
  value : List UInt8
  deriving DecidableEq, Repr

/-- `hpackSize`. -/
def Header.hpackSize (h : Header) : Int := int32 (int32 (32 + h.name.length) + h.value.length)

/-- `PSEUDO_PREFIX`. -/
def PSEUDO_PREFIX : List UInt8 := ascii ":"

/-- `TARGET_AUTHORITY`. -/
def TARGET_AUTHORITY : List UInt8 := ascii ":authority"

/-- `new Header(name, value)`. -/
def header (entry : String × String) : Header := ⟨ascii entry.1, ascii entry.2⟩

/-- `STATIC_HEADER_TABLE`. -/
def STATIC_HEADER_TABLE : List Header := [
  (":authority", ""), (":method", "GET"), (":method", "POST"), (":path", "/"), (":path", "/index.html"),
  (":scheme", "http"), (":scheme", "https"), (":status", "200"), (":status", "204"), (":status", "206"),
  (":status", "304"), (":status", "400"), (":status", "404"), (":status", "500"), ("accept-charset", ""),
  ("accept-encoding", "gzip, deflate"), ("accept-language", ""), ("accept-ranges", ""), ("accept", ""),
  ("access-control-allow-origin", ""), ("age", ""), ("allow", ""), ("authorization", ""), ("cache-control", ""),
  ("content-disposition", ""), ("content-encoding", ""), ("content-language", ""), ("content-length", ""),
  ("content-location", ""), ("content-range", ""), ("content-type", ""), ("cookie", ""), ("date", ""), ("etag", ""),
  ("expect", ""), ("expires", ""), ("from", ""), ("host", ""), ("if-match", ""), ("if-modified-since", ""),
  ("if-none-match", ""), ("if-range", ""), ("if-unmodified-since", ""), ("last-modified", ""), ("link", ""),
  ("location", ""), ("max-forwards", ""), ("proxy-authenticate", ""), ("proxy-authorization", ""), ("range", ""),
  ("referer", ""), ("refresh", ""), ("retry-after", ""), ("server", ""), ("set-cookie", ""),
  ("strict-transport-security", ""), ("transfer-encoding", ""), ("user-agent", ""), ("vary", ""), ("via", ""),
  ("www-authenticate", "")].map header

/-- `NAME_TO_FIRST_INDEX.get(name)`. -/
def NAME_TO_FIRST_INDEX (name : List UInt8) : Option Nat := STATIC_HEADER_TABLE.findIdx? (·.name = name)

def PREFIX_4_BITS : Nat := 0x0f
def PREFIX_5_BITS : Nat := 0x1f
def PREFIX_6_BITS : Nat := 0x3f
def PREFIX_7_BITS : Nat := 0x7f

/-- A byte between `'A'` and `'Z'`. -/
def isUpper (c : UInt8) : Bool := 0x41 ≤ c && c ≤ 0x5A

/-- `toAsciiLowercase`. -/
def toAsciiLowercase (name : List UInt8) : List UInt8 := name.map fun c => if isUpper c then c + 0x20 else c

/-- `checkLowercase`. -/
def checkLowercase (name : List UInt8) : Result (List UInt8) :=
  if name.any isUpper then .error (.io (.mixedCaseName name)) else .ok name

/-! ## The dynamic table -/

/-- The fields that `Reader` and `Writer` have in common. The array is filled from the end, so that the newest entry has the
lowest index. -/
structure DynamicTable where
  maxDynamicTableByteCount : Int
  dynamicTable : List (Option Header)
  nextHeaderIndex : Int
  headerCount : Int
  dynamicTableByteCount : Int
  deriving DecidableEq, Repr

/-- The fields of a new object. -/
def DynamicTable.new (maxDynamicTableByteCount : Int) : DynamicTable where
  maxDynamicTableByteCount := maxDynamicTableByteCount
  dynamicTable := List.replicate 8 none
  nextHeaderIndex := 7
  headerCount := 0
  dynamicTableByteCount := 0

/-- `clearDynamicTable`. -/
def DynamicTable.clearDynamicTable (t : DynamicTable) : DynamicTable :=
  { t with
    dynamicTable := List.replicate t.dynamicTable.length none
    nextHeaderIndex := t.dynamicTable.length - 1
    headerCount := 0
    dynamicTableByteCount := 0 }

/-- The loop of `evictToRecoverBytes` from index `j` on, with as many indices left for it. -/
def evictLoop (dynamicTable : List (Option Header)) (j : Int) :
    Nat → Int → Int → Int → Int → Result (Int × Int × Int)
  | 0, _, byteCount, headerCount, entriesToEvict => .ok (byteCount, headerCount, entriesToEvict)
  | left + 1, bytesToRecover, byteCount, headerCount, entriesToEvict =>
    if 0 < bytesToRecover then do
      let h ← deref (← aload dynamicTable j)
      evictLoop dynamicTable (j - 1) left (int32 (bytesToRecover - h.hpackSize)) (int32 (byteCount - h.hpackSize))
        (headerCount - 1) (entriesToEvict + 1)
    else .ok (byteCount, headerCount, entriesToEvict)

/-- `evictToRecoverBytes`: the table and the count of entries evicted. Only the `Writer` wipes the places they leave. -/
def DynamicTable.evictToRecoverBytes (wipe : Bool) (t : DynamicTable) (bytesToRecover : Int) :
    Result (DynamicTable × Int) :=
  if 0 < bytesToRecover then do
    let (byteCount, headerCount, entriesToEvict) ←
      evictLoop t.dynamicTable (t.dynamicTable.length - 1) (t.dynamicTable.length - t.nextHeaderIndex).toNat bytesToRecover
        t.dynamicTableByteCount t.headerCount 0
    let dynamicTable ← arraycopy t.dynamicTable (t.nextHeaderIndex + 1) t.dynamicTable
      (t.nextHeaderIndex + 1 + entriesToEvict) headerCount
    let dynamicTable ←
      if wipe then fill dynamicTable (t.nextHeaderIndex + 1) (t.nextHeaderIndex + 1 + entriesToEvict) none
      else .ok dynamicTable
    .ok ({ t with
      dynamicTable := dynamicTable
      nextHeaderIndex := t.nextHeaderIndex + entriesToEvict
      headerCount := headerCount
      dynamicTableByteCount := byteCount }, entriesToEvict)
  else .ok (t, 0)

/-- `adjustDynamicTableByteCount`. -/
def DynamicTable.adjustDynamicTableByteCount (wipe : Bool) (t : DynamicTable) : Result DynamicTable :=
  if t.maxDynamicTableByteCount < t.dynamicTableByteCount then
    if t.maxDynamicTableByteCount = 0 then .ok t.clearDynamicTable
    else do
      let (t, _) ← t.evictToRecoverBytes wipe (int32 (t.dynamicTableByteCount - t.maxDynamicTableByteCount))
      .ok t
  else .ok t

/-- The array is doubled when it has no room for one more entry. -/
def DynamicTable.grow (t : DynamicTable) : Result DynamicTable :=
  if t.dynamicTable.length < t.headerCount + 1 then do
    let doubled ← arraycopy t.dynamicTable 0 (List.replicate (t.dynamicTable.length * 2) none) t.dynamicTable.length
      t.dynamicTable.length
    .ok { t with dynamicTable := doubled, nextHeaderIndex := t.dynamicTable.length - 1 }
  else .ok t

/-- An entry is added to the dynamic table. -/
def DynamicTable.add (t : DynamicTable) (entry : Header) : Result DynamicTable := do
  let t ← t.grow
  let dynamicTable ← astore t.dynamicTable t.nextHeaderIndex (some entry)
  .ok { t with
    dynamicTable := dynamicTable
    nextHeaderIndex := t.nextHeaderIndex - 1
    headerCount := t.headerCount + 1 }

/-! ## `Reader` -/

/-- `Reader`, without its source. The places of the array that are read may be empty, so the entries of the header list may be
null. -/
structure Reader extends DynamicTable where
  headerList : List (Option Header)
  headerTableSizeSetting : Int
  deriving DecidableEq, Repr

namespace Reader

/-- `Reader(headerTableSizeSetting, maxDynamicTableByteCount, source)`. -/
def new (headerTableSizeSetting maxDynamicTableByteCount : Int) : Reader where
  toDynamicTable := .new maxDynamicTableByteCount
  headerList := []
  headerTableSizeSetting := headerTableSizeSetting

/-- `getAndResetHeaderList`. -/
def getAndResetHeaderList (r : Reader) : List (Option Header) × Reader := (r.headerList, { r with headerList := [] })

/-- `readByte`. -/
def readByte : List UInt8 → Result (UInt8 × List UInt8)
  | [] => .error (.io .eof)
  | b :: source => .ok (b, source)

/-- The loop of `readInt`. Of `shift` only the lowest five bits matter. -/
def readIntRest (result : Int) (shift : Nat) : List UInt8 → Result (Int × List UInt8)
  | [] => .error (.io .eof)
  | b :: source =>
    if b.toNat < 0x80 then .ok (int32 (result + int32 (b.toNat * 2 ^ (shift % 32))), source)
    else readIntRest (int32 (result + int32 ((b.toNat % 0x80 : Nat) * 2 ^ (shift % 32)))) (shift + 7) source

/-- `readInt`. -/
def readInt (firstByte : UInt8) (prefixMask : Nat) (source : List UInt8) : Result (Int × List UInt8) :=
  let bits := firstByte.toNat &&& prefixMask
  if bits < prefixMask then .ok (bits, source) else readIntRest prefixMask 0 source

/-- `source.readByteString(length)`. -/
def readBytes (length : Int) (source : List UInt8) : Result (List UInt8 × List UInt8) :=
  if length < 0 then .error .illegalArgument
  else if source.length < length then .error (.io .eof)
  else .ok (source.take length.toNat, source.drop length.toNat)

/-- `Huffman.get().decode(buf)`, which fails at a node that is missing. -/
def huffmanDecode (buf : List UInt8) : Result (List UInt8) := deref (Huffman.decode buf)

/-- `readByteString`. -/
def readByteString (source : List UInt8) : Result (List UInt8 × List UInt8) := do
  let (firstByte, source) ← readByte source
  let (length, source) ← readInt firstByte PREFIX_7_BITS source
  let (bytes, source) ← readBytes length source
  if 0x80 ≤ firstByte.toNat then do
    let bytes ← huffmanDecode bytes
    .ok (bytes, source)
  else .ok (bytes, source)

/-- `isStaticHeader`. -/
def isStaticHeader (index : Int) : Bool := 0 ≤ index && index ≤ STATIC_HEADER_TABLE.length - 1

/-- `dynamicTableIndex`. -/
def dynamicTableIndex (r : Reader) (index : Int) : Int := int32 (r.nextHeaderIndex + 1 + index)

/-- The entry at an index: one of the static table, or what is at its place in the array. -/
def entryAt (r : Reader) (index : Int) : Result (Option Header) :=
  if isStaticHeader index then do
    let staticEntry ← aload STATIC_HEADER_TABLE index
    .ok (some staticEntry)
  else
    let dynamicTableIndex := r.dynamicTableIndex (int32 (index - STATIC_HEADER_TABLE.length))
    if dynamicTableIndex < 0 ∨ r.dynamicTable.length ≤ dynamicTableIndex then
      .error (.io (.headerIndexTooLarge (int32 (index + 1))))
    else aload r.dynamicTable dynamicTableIndex

/-- `headerList.add(entry)`. -/
def addHeader (r : Reader) (entry : Option Header) : Reader := { r with headerList := r.headerList ++ [entry] }

/-- `readIndexedHeader`. -/
def readIndexedHeader (r : Reader) (index : Int) : Result Reader := do
  let entry ← r.entryAt index
  .ok (r.addHeader entry)

/-- `getName`. -/
def getName (r : Reader) (index : Int) : Result (List UInt8) := do
  let entry ← deref (← r.entryAt index)
  .ok entry.name

/-- `insertIntoDynamicTable(-1, entry)`; the method is called with no other index. -/
def insertIntoDynamicTable (r : Reader) (entry : Header) : Result Reader :=
  let r := r.addHeader (some entry)
  let delta := entry.hpackSize
  if r.maxDynamicTableByteCount < delta then .ok { r with toDynamicTable := r.clearDynamicTable }
  else do
    let bytesToRecover := int32 (int32 (r.dynamicTableByteCount + delta) - r.maxDynamicTableByteCount)
    let (t, _) ← r.evictToRecoverBytes false bytesToRecover
    let t ← t.add entry
    .ok { r with toDynamicTable := { t with dynamicTableByteCount := int32 (t.dynamicTableByteCount + delta) } }

/-- `readLiteralHeaderWithoutIndexingIndexedName`. -/
def readLiteralHeaderWithoutIndexingIndexedName (r : Reader) (index : Int) (source : List UInt8) :
    Result (Reader × List UInt8) := do
  let name ← r.getName index
  let (value, source) ← readByteString source
  .ok (r.addHeader (some ⟨name, value⟩), source)

/-- `readLiteralHeaderWithoutIndexingNewName`. -/
def readLiteralHeaderWithoutIndexingNewName (r : Reader) (source : List UInt8) : Result (Reader × List UInt8) := do
  let (name, source) ← readByteString source
  let name ← checkLowercase name
  let (value, source) ← readByteString source
  .ok (r.addHeader (some ⟨name, value⟩), source)

/-- `readLiteralHeaderWithIncrementalIndexingIndexedName`. -/
def readLiteralHeaderWithIncrementalIndexingIndexedName (r : Reader) (nameIndex : Int) (source : List UInt8) :
    Result (Reader × List UInt8) := do
  let name ← r.getName nameIndex
  let (value, source) ← readByteString source
  let r ← r.insertIntoDynamicTable ⟨name, value⟩
  .ok (r, source)

/-- `readLiteralHeaderWithIncrementalIndexingNewName`. -/
def readLiteralHeaderWithIncrementalIndexingNewName (r : Reader) (source : List UInt8) : Result (Reader × List UInt8) := do
  let (name, source) ← readByteString source
  let name ← checkLowercase name
  let (value, source) ← readByteString source
  let r ← r.insertIntoDynamicTable ⟨name, value⟩
  .ok (r, source)

/-- The size update of `readHeaders`. -/
def readSizeUpdate (r : Reader) (size : Int) : Result Reader :=
  if size < 0 ∨ r.headerTableSizeSetting < size then .error (.io (.invalidSizeUpdate size))
  else do
    let t ← DynamicTable.adjustDynamicTableByteCount false { r.toDynamicTable with maxDynamicTableByteCount := size }
    .ok { r with toDynamicTable := t }

/-- One round of the loop of `readHeaders`, whose first byte is `b`. -/
def readHeader (r : Reader) (b : UInt8) (source : List UInt8) : Result (Reader × List UInt8) :=
  if b = 0x80 then .error (.io .indexZero)
  else if b &&& 0x80 = 0x80 then do
    let (index, source) ← readInt b PREFIX_7_BITS source
    let r ← r.readIndexedHeader (int32 (index - 1))
    .ok (r, source)
  else if b = 0x40 then r.readLiteralHeaderWithIncrementalIndexingNewName source
  else if b &&& 0x40 = 0x40 then do
    let (index, source) ← readInt b PREFIX_6_BITS source
    r.readLiteralHeaderWithIncrementalIndexingIndexedName (int32 (index - 1)) source
  else if b &&& 0x20 = 0x20 then do
    let (size, source) ← readInt b PREFIX_5_BITS source
    let r ← r.readSizeUpdate size
    .ok (r, source)
  else if b = 0x10 ∨ b = 0 then r.readLiteralHeaderWithoutIndexingNewName source
  else do
    let (index, source) ← readInt b PREFIX_4_BITS source
    r.readLiteralHeaderWithoutIndexingIndexedName (int32 (index - 1)) source

/-- `readHeaders`: rounds until the source is exhausted. Every round takes at least a byte off it, so there are no more of
them than bytes. -/
def readHeadersLoop : Nat → Reader → List UInt8 → Result Reader
  | _, r, [] => .ok r
  | 0, r, _ => .ok r
  | rounds + 1, r, b :: source => do
    let (r, source) ← r.readHeader b source
    readHeadersLoop rounds r source

/-- `readHeaders`. -/
def readHeaders (r : Reader) (source : List UInt8) : Result Reader := readHeadersLoop source.length r source

end Reader

/-! ## `Writer` -/

/-- `SETTINGS_HEADER_TABLE_SIZE_LIMIT`. -/
def SETTINGS_HEADER_TABLE_SIZE_LIMIT : Int := 16384

/-- `Writer`, without its buffer. -/
structure Writer extends DynamicTable where
  useCompression : Bool
  smallestHeaderTableSizeSetting : Int
  emitDynamicTableSizeUpdate : Bool
  headerTableSizeSetting : Int
  deriving DecidableEq, Repr

namespace Writer

/-- `Writer(headerTableSizeSetting, useCompression, out)`. -/
def new (headerTableSizeSetting : Int) (useCompression : Bool) : Writer where
  toDynamicTable := .new headerTableSizeSetting
  useCompression := useCompression
  smallestHeaderTableSizeSetting := MAX_VALUE
  emitDynamicTableSizeUpdate := false
  headerTableSizeSetting := headerTableSizeSetting

/-- `insertIntoDynamicTable`. -/
def insertIntoDynamicTable (w : Writer) (entry : Header) : Result Writer :=
  let delta := entry.hpackSize
  if w.maxDynamicTableByteCount < delta then .ok { w with toDynamicTable := w.clearDynamicTable }
  else do
    let bytesToRecover := int32 (int32 (w.dynamicTableByteCount + delta) - w.maxDynamicTableByteCount)
    let (t, _) ← w.evictToRecoverBytes true bytesToRecover
    let t ← t.add entry
    .ok { w with toDynamicTable := { t with dynamicTableByteCount := int32 (t.dynamicTableByteCount + delta) } }

/-- The loop of `writeInt`. -/
def writeIntRest (value : Nat) : List UInt8 :=
  if 0x80 ≤ value then UInt8.ofNat (value % 0x80 ||| 0x80) :: writeIntRest (value / 0x80) else [UInt8.ofNat value]

/-- `writeInt`. A byte is the lowest eight bits of what is written. -/
def writeInt (value : Int) (prefixMask bits : Nat) : List UInt8 :=
  if value < prefixMask then [⟨BitVec.ofNat 8 bits ||| BitVec.ofInt 8 value⟩]
  else UInt8.ofNat (bits ||| prefixMask) :: writeIntRest (value - prefixMask).toNat

/-- `writeByteString`. -/
def writeByteString (w : Writer) (data : List UInt8) : List UInt8 :=
  if w.useCompression ∧ (Huffman.encodedLength data).toInt < data.length then
    writeInt (Huffman.encode data).length PREFIX_7_BITS 0x80 ++ Huffman.encode data
  else writeInt data.length PREFIX_7_BITS 0 ++ data

/-- The loop over the dynamic table, from index `j` on: the indices of the header and of its name. -/
def searchLoop (name value : List UInt8) (nextHeaderIndex j : Int) :
    List (Option Header) → Int → Result (Int × Int)
  | [], headerNameIndex => .ok (-1, headerNameIndex)
  | slot :: slots, headerNameIndex => do
    let h ← deref slot
    if h.name = name then
      if h.value = value then .ok (j - nextHeaderIndex + STATIC_HEADER_TABLE.length, headerNameIndex)
      else
        searchLoop name value nextHeaderIndex (j + 1) slots
          (if headerNameIndex = -1 then j - nextHeaderIndex + STATIC_HEADER_TABLE.length else headerNameIndex)
    else searchLoop name value nextHeaderIndex (j + 1) slots headerNameIndex

/-- What the static table knows of a header: the indices of the header and of its name. Only its entries with a value that
matters are looked at. -/
def searchStatic (name value : List UInt8) : Result (Int × Int) :=
  match NAME_TO_FIRST_INDEX name with
  | none => .ok (-1, -1)
  | some staticIndex =>
    let headerNameIndex : Int := staticIndex + 1
    if 1 < headerNameIndex ∧ headerNameIndex < 8 then do
      let first ← aload STATIC_HEADER_TABLE (headerNameIndex - 1)
      if first.value = value then .ok (headerNameIndex, headerNameIndex)
      else do
        let second ← aload STATIC_HEADER_TABLE headerNameIndex
        if second.value = value then .ok (headerNameIndex + 1, headerNameIndex) else .ok (-1, headerNameIndex)
    else .ok (-1, headerNameIndex)

/-- The indices that `writeHeaders` finds for a header and for its name, `-1` where there is none. -/
def search (w : Writer) (name value : List UInt8) : Result (Int × Int) := do
  let (headerIndex, headerNameIndex) ← searchStatic name value
  if headerIndex = -1 then
    searchLoop name value w.nextHeaderIndex (w.nextHeaderIndex + 1) (w.dynamicTable.drop (w.nextHeaderIndex + 1).toNat)
      headerNameIndex
  else .ok (headerIndex, headerNameIndex)

/-- One round of the loop of `writeHeaders`. -/
def writeHeader (w : Writer) (header : Header) : Result (Writer × List UInt8) := do
  let name := toAsciiLowercase header.name
  let value := header.value
  let (headerIndex, headerNameIndex) ← w.search name value
  if headerIndex ≠ -1 then .ok (w, writeInt headerIndex PREFIX_7_BITS 0x80)
  else if headerNameIndex = -1 then do
    let bytes := 0x40 :: (w.writeByteString name ++ w.writeByteString value)
    let w ← w.insertIntoDynamicTable header
    .ok (w, bytes)
  else if PSEUDO_PREFIX.isPrefixOf name ∧ TARGET_AUTHORITY ≠ name then
    .ok (w, writeInt headerNameIndex PREFIX_4_BITS 0 ++ w.writeByteString value)
  else do
    let bytes := writeInt headerNameIndex PREFIX_6_BITS 0x40 ++ w.writeByteString value
    let w ← w.insertIntoDynamicTable header
    .ok (w, bytes)

/-- The size updates at the beginning of `writeHeaders`. -/
def emitSizeUpdates (w : Writer) : Writer × List UInt8 :=
  if w.emitDynamicTableSizeUpdate then
    ({ w with emitDynamicTableSizeUpdate := false, smallestHeaderTableSizeSetting := MAX_VALUE },
      (if w.smallestHeaderTableSizeSetting < w.maxDynamicTableByteCount then
        writeInt w.smallestHeaderTableSizeSetting PREFIX_5_BITS 0x20
      else []) ++ writeInt w.maxDynamicTableByteCount PREFIX_5_BITS 0x20)
  else (w, [])

/-- The loop of `writeHeaders`. -/
def writeHeadersLoop : Writer → List Header → Result (Writer × List UInt8)
  | w, [] => .ok (w, [])
  | w, header :: headerBlock => do
    let (w, bytes) ← w.writeHeader header
    let (w, more) ← writeHeadersLoop w headerBlock
    .ok (w, bytes ++ more)

/-- `writeHeaders`. -/
def writeHeaders (w : Writer) (headerBlock : List Header) : Result (Writer × List UInt8) := do
  let (w, bytes) := w.emitSizeUpdates
  let (w, more) ← w.writeHeadersLoop headerBlock
  .ok (w, bytes ++ more)

/-- `setHeaderTableSizeSetting`. -/
def setHeaderTableSizeSetting (w : Writer) (headerTableSizeSetting : Int) : Result Writer :=
  let w := { w with headerTableSizeSetting := headerTableSizeSetting }
  let effectiveHeaderTableSize := min headerTableSizeSetting SETTINGS_HEADER_TABLE_SIZE_LIMIT
  if w.maxDynamicTableByteCount = effectiveHeaderTableSize then .ok w
  else do
    let smallest :=
      if effectiveHeaderTableSize < w.maxDynamicTableByteCount then
        min w.smallestHeaderTableSizeSetting effectiveHeaderTableSize
      else w.smallestHeaderTableSizeSetting
    let t ← DynamicTable.adjustDynamicTableByteCount true
      { w.toDynamicTable with maxDynamicTableByteCount := effectiveHeaderTableSize }
    .ok { w with
      toDynamicTable := t
      smallestHeaderTableSizeSetting := smallest
      emitDynamicTableSizeUpdate := true }

end Writer

end Hpack

end LibraLive
