/-
`pcm_params_to_string`: pieces of text printed one behind the other into a buffer that may be too short. However
long the pieces are, the buffer holds what one `snprintf` of the whole text would leave, and the length of the whole
text is returned, as far as an `int` can tell it.
-/
import Tinyalsa.Lib.Snprintf
import Tinyalsa.Pcm.Params

namespace Tinyalsa

open CInt Snprintf

/-! ## Reading the parameters -/

/-- `enum pcm_param`. -/
inductive PcmParam
  | access | format | subformat | sampleBits | frameBits | channels | rate | periodTime | periodSize | periodBytes
  | periods | bufferTime | bufferSize | bufferBytes | tickTime
  deriving DecidableEq, Repr

/-- `pcm_param_to_alsa`: the mask or the interval that a parameter is kept in. -/
def pcmParamToAlsa : PcmParam → MaskParam ⊕ IntervalParam
  | .access => .inl .access
  | .format => .inl .format
  | .subformat => .inl .subformat
  | .sampleBits => .inr .sampleBits
  | .frameBits => .inr .frameBits
  | .channels => .inr .channels
  | .rate => .inr .rate
  | .periodTime => .inr .periodTime
  | .periodSize => .inr .periodSize
  | .periodBytes => .inr .periodBytes
  | .periods => .inr .periods
  | .bufferTime => .inr .bufferTime
  | .bufferSize => .inr .bufferSize
  | .bufferBytes => .inr .bufferBytes
  | .tickTime => .inr .tickTime

/-- `pcm_params_get_mask`. -/
def pcmParamsGetMask (params : Option SndPcmHwParams) (param : PcmParam) : Option SndMask :=
  match params, pcmParamToAlsa param with
  | some params, .inl p => some (params.masks p)
  | _, _ => none

/-- `pcm_params_get_min`. -/
def pcmParamsGetMin (params : Option SndPcmHwParams) (param : PcmParam) : UInt32 :=
  match params, pcmParamToAlsa param with
  | some params, .inr p => paramGetMin params p
  | _, _ => 0

/-- `pcm_params_get_max`. -/
def pcmParamsGetMax (params : Option SndPcmHwParams) (param : PcmParam) : UInt32 :=
  match params, pcmParamToAlsa param with
  | some params, .inr p => paramGetMax params p
  | _, _ => 0

/-- `pcm_mask_test`. -/
def pcmMaskTest (m : SndMask) (index : UInt32) : Bool :=
  let element := index >>> 5
  if h : element.toNat < 8 then (m.bits ⟨element.toNat, h⟩ >>> (index &&& 31)) &&& 1 ≠ 0 else false

/-! ## The names -/

/-- `access_lookup`. -/
def accessLookup : List (Option String) :=
  [some "MMAP_INTERLEAVED", some "MMAP_NONINTERLEAVED", some "MMAP_COMPLEX", some "RW_INTERLEAVED",
    some "RW_NONINTERLEAVED"]

/-- `format_lookup`. The gap in the middle holds null pointers. -/
def formatLookup : List (Option String) :=
  [some "S8", some "U8", some "S16_LE", some "S16_BE", some "U16_LE", some "U16_BE", some "S24_LE", some "S24_BE",
    some "U24_LE", some "U24_BE", some "S32_LE", some "S32_BE", some "U32_LE", some "U32_BE", some "FLOAT_LE",
    some "FLOAT_BE", some "FLOAT64_LE", some "FLOAT64_BE", some "IEC958_SUBFRAME_LE", some "IEC958_SUBFRAME_BE",
    some "MU_LAW", some "A_LAW", some "IMA_ADPCM", some "MPEG", some "GSM", none, none, none, none, none, none,
    some "SPECIAL", some "S24_3LE", some "S24_3BE", some "U24_3LE", some "U24_3BE", some "S20_3LE", some "S20_3BE",
    some "U20_3LE", some "U20_3BE", some "S18_3LE", some "S18_3BE", some "U18_3LE", some "U18_3BE"]

/-- `subformat_lookup`. -/
def subformatLookup : List (Option String) := [some "STD"]

/-! ## Printing -/

/-- An argument of `snprintf`: a string, none for a null pointer, or a number. -/
inductive FormatArg
  | str (s : Option String)
  | num (n : UInt32)
  deriving DecidableEq, Repr

/-- What one `snprintf` is given to print. -/
structure Piece where
  format : String
  args : List FormatArg
  deriving DecidableEq, Repr

/-- What `STRLOG` updates. -/
structure StrLog where
  offset : UInt32
  mem : Memory

section

variable (text : Piece → List UInt8)

/-- `snprintf`. A text whose length no `int` can tell is an error. -/
def snprintf (p : Piece) (string : Int) (size : Nat) (mem : Memory) : Int × Memory :=
  (if (text p).length ≤ intMax then (text p).length else -1, print mem string size (text p))

/-- `STRLOG`. -/
def strlog (string : Int) (size : UInt32) (s : StrLog) (p : Piece) : StrLog :=
  let clipoffset := ofUInt (if s.offset > size then size else s.offset)
  let (temp, mem) := snprintf text p (string + clipoffset) (size - toUInt clipoffset).toNat s.mem
  { offset := if temp > 0 then s.offset + toUInt temp else s.offset, mem }

/-- `pcm_mask_to_string`. -/
def pcmMaskToString (m : Option SndMask) (string : Int) (size : UInt32) (maskName : String)
    (bitArrayName : List (Option String)) (mem : Memory) : Int × Memory :=
  match m with
  | none => (0, mem)
  | some m =>
    let s : StrLog := { offset := 0, mem }
    let s :=
      if bitArrayName.length < 32 then
        strlog text string size s { format := "%12s:\t%#08x\n", args := [.str (some maskName), .num (m.bits 0)] }
      else
        (List.range ((bitArrayName.length + 31) / 32)).foldl (fun s i =>
          strlog text string size s
            { format := "%9s[%d]:\t%#08x\n",
              args := [.str (some maskName), .num (.ofNat i), .num (m.bits (Fin.ofNat 8 i))] }) s
    let s := (List.range bitArrayName.length).foldl (fun s i =>
      if pcmMaskTest m (.ofNat i) then
        strlog text string size s
          { format := "%12s \t%s\n", args := [.str (some ""), .str (bitArrayName[i]?.join)] }
      else s) s
    (ofUInt s.offset, s.mem)

/-- `pcm_params_to_string`. -/
def pcmParamsToString (params : Option SndPcmHwParams) (string : Int) (size : UInt32) (mem : Memory) : Int × Memory :=
  let m := pcmParamsGetMask params .access
  let (n, mem) := pcmMaskToString text m string size "Access" accessLookup mem
  let offset := toUInt n
  let m := pcmParamsGetMask params .format
  let clipoffset := if offset > size then size else offset
  let (n, mem) := pcmMaskToString text m (string + clipoffset.toNat) (size - clipoffset) "Format" formatLookup mem
  let offset := offset + toUInt n
  let m := pcmParamsGetMask params .subformat
  let clipoffset := if offset > size then size else offset
  let (n, mem) := pcmMaskToString text m (string + clipoffset.toNat) (size - clipoffset) "Subformat" subformatLookup mem
  let offset := offset + toUInt n
  let s : StrLog := { offset, mem }
  let min := pcmParamsGetMin params .rate
  let max := pcmParamsGetMax params .rate
  let s := strlog text string size s { format := "        Rate:\tmin=%uHz\tmax=%uHz\n", args := [.num min, .num max] }
  let min := pcmParamsGetMin params .channels
  let max := pcmParamsGetMax params .channels
  let s := strlog text string size s { format := "    Channels:\tmin=%u\t\tmax=%u\n", args := [.num min, .num max] }
  let min := pcmParamsGetMin params .sampleBits
  let max := pcmParamsGetMax params .sampleBits
  let s := strlog text string size s { format := " Sample bits:\tmin=%u\t\tmax=%u\n", args := [.num min, .num max] }
  let min := pcmParamsGetMin params .periodSize
  let max := pcmParamsGetMax params .periodSize
  let s := strlog text string size s { format := " Period size:\tmin=%u\t\tmax=%u\n", args := [.num min, .num max] }
  let min := pcmParamsGetMin params .periods
  let max := pcmParamsGetMax params .periods
  let s := strlog text string size s { format := "Period count:\tmin=%u\t\tmax=%u\n", args := [.num min, .num max] }
  (ofUInt s.offset, s.mem)

end

/-! ## The text -/

/-- The word of a mask, or its words with their index where the names span several. -/
def wordPieces (m : SndMask) (name : String) (count : Nat) : List Piece :=
  if count < 32 then [{ format := "%12s:\t%#08x\n", args := [.str (some name), .num (m.bits 0)] }]
  else (List.range ((count + 31) / 32)).map fun i =>
    { format := "%9s[%d]:\t%#08x\n", args := [.str (some name), .num (.ofNat i), .num (m.bits (Fin.ofNat 8 i))] }

/-- The name of every bit that is set. -/
def namePieces (m : SndMask) (names : List (Option String)) : List Piece :=
  ((List.range names.length).filter fun i => pcmMaskTest m (.ofNat i)).map fun i =>
    { format := "%12s \t%s\n", args := [.str (some ""), .str (names[i]?.join)] }

/-- The pieces that describe a mask; there are none without one. -/
def maskPieces (m : Option SndMask) (name : String) (names : List (Option String)) : List Piece :=
  m.elim [] fun m => wordPieces m name names.length ++ namePieces m names

/-- The line of an interval. -/
def rangePiece (params : Option SndPcmHwParams) (param : PcmParam) (format : String) : Piece where
  format := format
  args := [.num (pcmParamsGetMin params param), .num (pcmParamsGetMax params param)]

/-- The lines of the intervals. -/
def rangePieces (params : Option SndPcmHwParams) : List Piece :=
  [rangePiece params .rate "        Rate:\tmin=%uHz\tmax=%uHz\n",
    rangePiece params .channels "    Channels:\tmin=%u\t\tmax=%u\n",
    rangePiece params .sampleBits " Sample bits:\tmin=%u\t\tmax=%u\n",
    rangePiece params .periodSize " Period size:\tmin=%u\t\tmax=%u\n",
    rangePiece params .periods "Period count:\tmin=%u\t\tmax=%u\n"]

/-- Everything that is printed about the parameters. -/
def paramsPieces (params : Option SndPcmHwParams) : List Piece :=
  maskPieces (pcmParamsGetMask params .access) "Access" accessLookup ++
    maskPieces (pcmParamsGetMask params .format) "Format" formatLookup ++
    maskPieces (pcmParamsGetMask params .subformat) "Subformat" subformatLookup ++ rangePieces params

/-- The pieces, one behind the other. -/
def fullText (text : Piece → List UInt8) (ps : List Piece) : List UInt8 := ps.flatMap text

section

variable {text : Piece → List UInt8} {string : Int} {size : UInt32} {mem : Memory}

@[simp] theorem fullText_nil : fullText text [] = [] := rfl

theorem fullText_append (ps qs : List Piece) : fullText text (ps ++ qs) = fullText text ps ++ fullText text qs :=
  List.flatMap_append

theorem fullText_singleton (p : Piece) : fullText text [p] = text p := List.flatMap_singleton ..

/-- Texts that `STRLOG` counts right: an `int` can tell the length of each piece and the offset after clipping, and
an `unsigned int` all of them together. -/
structure Countable (text : Piece → List UInt8) (size : UInt32) (ps : List Piece) : Prop where
  piece : ∀ p ∈ ps, (text p).length ≤ intMax
  total : (fullText text ps).length < 2 ^ 32
  clip : min (fullText text ps).length size.toNat ≤ intMax

theorem Countable.left {ps qs : List Piece} (h : Countable text size (ps ++ qs)) : Countable text size ps := by
  have hlen : (fullText text (ps ++ qs)).length = (fullText text ps).length + (fullText text qs).length := by
    rw [fullText_append, List.length_append]
  have := h.total
  have := h.clip
  exact ⟨fun p hp => h.piece p (List.mem_append_left _ hp), by omega, by omega⟩

/-- What follows is printed into what is left of the buffer. -/
theorem Countable.right {ps qs : List Piece} (h : Countable text size (ps ++ qs)) {rest : UInt32}
    (hr : rest.toNat = size.toNat - min (fullText text ps).length size.toNat) : Countable text rest qs := by
  have hlen : (fullText text (ps ++ qs)).length = (fullText text ps).length + (fullText text qs).length := by
    rw [fullText_append, List.length_append]
  have := h.total
  have := h.clip
  exact ⟨fun p hp => h.piece p (List.mem_append_right _ hp), by omega, by omega⟩

/-! ## Printing piece by piece -/

/-- The pieces so far are counted, and the next one will stand in the buffer as if they were one text. Before the
first piece nothing is there, not even a NUL. -/
structure Logged (text : Piece → List UInt8) (string : Int) (size : UInt32) (mem : Memory) (ps : List Piece)
    (s : StrLog) : Prop where
  offset : s.offset.toNat = (fullText text ps).length
  next : ∀ y, print s.mem (string + (min (fullText text ps).length size.toNat : Nat))
    (size.toNat - min (fullText text ps).length size.toNat) y = print mem string size.toNat (fullText text ps ++ y)

theorem logged_nil : Logged text string size mem [] { offset := 0, mem } := by
  constructor
  · rfl
  · intro y
    simp

/-- What is left of the buffer behind an offset. -/
theorem toNat_clipRest (size offset : UInt32) :
    (size - if offset > size then size else offset).toNat = size.toNat - min offset.toNat size.toNat := by
  have hclip : (if offset > size then size else offset).toNat = min offset.toNat size.toNat := toNat_clamp ..
  rw [UInt32.toNat_sub_of_le _ _ (UInt32.le_iff_toNat_le.2 (by omega)), hclip]

/-- Where the next piece goes. -/
theorem Logged.clip {ps : List Piece} {s : StrLog} (h : Logged text string size mem ps s) :
    (if s.offset > size then size else s.offset).toNat = min (fullText text ps).length size.toNat ∧
      (size - if s.offset > size then size else s.offset).toNat =
        size.toNat - min (fullText text ps).length size.toNat := by
  rw [toNat_clamp, toNat_clipRest, h.offset]
  exact ⟨rfl, rfl⟩

/-- A piece leaves the text so far in the buffer. -/
theorem Logged.strlog_mem {ps : List Piece} {s : StrLog} {p : Piece} (h : Logged text string size mem ps s)
    (hc : Countable text size (ps ++ [p])) :
    (strlog text string size s p).mem = print mem string size.toNat (fullText text (ps ++ [p])) := by
  obtain ⟨hclip, hrest⟩ := h.clip
  have hofs : ofUInt (if s.offset > size then size else s.offset) =
    (min (fullText text ps).length size.toNat : Nat) := by
    rw [ofUInt_of_le (by rw [hclip]; exact hc.left.clip), hclip]
  simp only [strlog, snprintf]
  rw [toUInt_ofUInt, hrest, hofs, h.next, fullText_append, fullText_singleton]

theorem Logged.strlog {ps : List Piece} {s : StrLog} {p : Piece} (h : Logged text string size mem ps s)
    (hc : Countable text size (ps ++ [p])) : Logged text string size mem (ps ++ [p]) (strlog text string size s p) := by
  have hpiece : (text p).length ≤ intMax := hc.piece p (List.mem_append_right _ (List.mem_singleton_self p))
  constructor
  · have htotal := hc.total
    rw [fullText_append, fullText_singleton, List.length_append] at htotal ⊢
    simp only [Tinyalsa.strlog, snprintf, if_pos hpiece]
    split
    · rw [UInt32.toNat_add, toNat_toUInt, h.offset]
      omega
    · rw [h.offset]
      omega
  · intro y
    rw [h.strlog_mem hc, print_print]

theorem Logged.foldl {ps : List Piece} : ∀ {qs : List Piece} {s : StrLog}, Logged text string size mem ps s →
    Countable text size (ps ++ qs) →
      Logged text string size mem (ps ++ qs) (qs.foldl (Tinyalsa.strlog text string size) s) := by
  intro qs
  induction qs generalizing ps with
  | nil =>
    intro s h _
    rwa [List.append_nil]
  | cons q qs ih =>
    intro s h hc
    have heq : ps ++ q :: qs = ps ++ [q] ++ qs := by rw [List.append_assoc, List.singleton_append]
    rw [heq] at hc ⊢
    exact ih (h.strlog hc.left) hc

/-- The last piece leaves the whole text in the buffer. -/
theorem Logged.foldl_mem {ps : List Piece} (qs : List Piece) {p : Piece} {s : StrLog}
    (h : Logged text string size mem ps s) (hc : Countable text size (ps ++ (qs ++ [p]))) :
    ((qs ++ [p]).foldl (Tinyalsa.strlog text string size) s).mem =
      print mem string size.toNat (fullText text (ps ++ (qs ++ [p]))) := by
  rw [← List.append_assoc] at hc ⊢
  rw [List.foldl_append, List.foldl_cons, List.foldl_nil]
  exact (h.foldl hc.left).strlog_mem hc

/-! ## One mask -/

/-- `pcm_mask_to_string` prints its pieces one by one. -/
theorem pcmMaskToString_eq (m : Option SndMask) (name : String) (names : List (Option String)) :
    pcmMaskToString text m string size name names mem =
      let s := (maskPieces m name names).foldl (strlog text string size) { offset := 0, mem }
      (ofUInt s.offset, s.mem) := by
  rcases m with _ | m
  · have hzero : ofUInt 0 = 0 := by decide
    simp only [pcmMaskToString, maskPieces, Option.elim_none, List.foldl_nil, hzero]
  · simp only [pcmMaskToString, maskPieces, Option.elim_some, List.foldl_append]
    have hnames (s : StrLog) : (namePieces m names).foldl (strlog text string size) s =
        (List.range names.length).foldl (fun s i =>
          if pcmMaskTest m (.ofNat i) then
            strlog text string size s
              { format := "%12s \t%s\n", args := [.str (some ""), .str (names[i]?.join)] }
          else s) s := by
      rw [namePieces, List.foldl_map, List.foldl_filter]
    rw [hnames]
    by_cases hn : names.length < 32
    · simp only [wordPieces, if_pos hn, List.foldl_cons, List.foldl_nil]
    · simp only [wordPieces, if_neg hn, List.foldl_map]

/-- A mask printed into what is left of the buffer. -/
def maskLog (text : Piece → List UInt8) (string : Int) (size : UInt32) (m : Option SndMask) (name : String)
    (names : List (Option String)) (s : StrLog) : StrLog :=
  let clipoffset := if s.offset > size then size else s.offset
  let r := pcmMaskToString text m (string + clipoffset.toNat) (size - clipoffset) name names s.mem
  { offset := s.offset + toUInt r.1, mem := r.2 }

theorem logged_mask (string : Int) (mem : Memory) {m : Option SndMask} {name : String} {names : List (Option String)}
    (hc : Countable text size (maskPieces m name names)) :
    let r := pcmMaskToString text m string size name names mem
    Logged text string size mem (maskPieces m name names) { offset := toUInt r.1, mem := r.2 } := by
  intro r
  simp only [r, pcmMaskToString_eq, toUInt_ofUInt]
  exact logged_nil.foldl hc

theorem Logged.mask {ps : List Piece} {s : StrLog} (h : Logged text string size mem ps s) {m : Option SndMask}
    {name : String} {names : List (Option String)} (hc : Countable text size (ps ++ maskPieces m name names)) :
    Logged text string size mem (ps ++ maskPieces m name names) (maskLog text string size m name names s) := by
  obtain ⟨hclip, hrest⟩ := h.clip
  have hin := logged_mask (string + (if s.offset > size then size else s.offset).toNat) s.mem (hc.right hrest)
  have htotal := hc.total
  rw [fullText_append, List.length_append] at htotal
  constructor
  · rw [maskLog, UInt32.toNat_add, h.offset, hin.offset, fullText_append, List.length_append]
    omega
  · intro y
    -- what is left behind the mask, seen from its own buffer
    have hnext : print (maskLog text string size m name names s).mem _ _ y = _ := hin.next y
    rw [hrest, hclip, h.next] at hnext
    have haddr : string + (min
      ((fullText text ps).length + (fullText text (maskPieces m name names)).length) size.toNat : Nat) =
        string + (min (fullText text ps).length size.toNat : Nat) +
        (min (fullText text (maskPieces m name names)).length
          (size.toNat - min (fullText text ps).length size.toNat) : Nat) := by omega
    have hroom :
        size.toNat - min ((fullText text ps).length + (fullText text (maskPieces m name names)).length) size.toNat =
        size.toNat - min (fullText text ps).length size.toNat - min (fullText text (maskPieces m name names)).length
          (size.toNat - min (fullText text ps).length size.toNat) := by omega
    rw [fullText_append, List.length_append, haddr, hroom, List.append_assoc]
    exact hnext

/-! ## Outside the buffer -/

/-- However long the pieces are, and whatever the offset has come to, `STRLOG` writes inside the buffer. -/
theorem strlog_outside (hs : size.toNat ≤ intMax) {i : Int} (hi : i < string ∨ string + size.toNat ≤ i) (s : StrLog)
    (p : Piece) : (strlog text string size s p).mem i = s.mem i := by
  have hclip : (if s.offset > size then size else s.offset).toNat = min s.offset.toNat size.toNat := toNat_clamp ..
  have hofs : ofUInt (if s.offset > size then size else s.offset) = (min s.offset.toNat size.toNat : Nat) := by
    rw [ofUInt_of_le (by omega), hclip]
  simp only [strlog, snprintf]
  rw [toUInt_ofUInt, toNat_clipRest, hofs]
  exact print_outside _ (by omega)

theorem foldl_strlog_outside (hs : size.toNat ≤ intMax) {i : Int} (hi : i < string ∨ string + size.toNat ≤ i)
    (ps : List Piece) (s : StrLog) : (ps.foldl (strlog text string size) s).mem i = s.mem i := by
  induction ps generalizing s with
  | nil => rfl
  | cons p ps ih =>
    rw [List.foldl_cons, ih]
    exact strlog_outside hs hi s p

theorem pcmMaskToString_outside (hs : size.toNat ≤ intMax) {i : Int} (hi : i < string ∨ string + size.toNat ≤ i)
    (m : Option SndMask) (name : String) (names : List (Option String)) :
    (pcmMaskToString text m string size name names mem).2 i = mem i := by
  rw [pcmMaskToString_eq]
  exact foldl_strlog_outside hs hi ..

/-- The buffer that a mask is printed into is the end of the whole one. -/
theorem maskLog_outside (hs : size.toNat ≤ intMax) {i : Int} (hi : i < string ∨ string + size.toNat ≤ i)
    (m : Option SndMask) (name : String) (names : List (Option String)) (s : StrLog) :
    (maskLog text string size m name names s).mem i = s.mem i := by
  have hclip : (if s.offset > size then size else s.offset).toNat = min s.offset.toNat size.toNat := toNat_clamp ..
  have hrest := toNat_clipRest size s.offset
  exact pcmMaskToString_outside (by omega) (by omega) ..

/-! ## The whole text -/

theorem pcmParamsToString_eq (params : Option SndPcmHwParams) :
    pcmParamsToString text params string size mem =
      let r := pcmMaskToString text (pcmParamsGetMask params .access) string size "Access" accessLookup mem
      let s := maskLog text string size (pcmParamsGetMask params .format) "Format" formatLookup
        { offset := toUInt r.1, mem := r.2 }
      let s := maskLog text string size (pcmParamsGetMask params .subformat) "Subformat" subformatLookup s
      let s := (rangePieces params).foldl (strlog text string size) s
      (ofUInt s.offset, s.mem) := rfl

/-- As long as the lengths can be counted, the whole text is in the buffer as one `snprintf` leaves it, and its length
is returned in an `int`. -/
theorem pcmParamsToString_spec {params : Option SndPcmHwParams} (hc : Countable text size (paramsPieces params)) :
    pcmParamsToString text params string size mem =
      (wrapInt (fullText text (paramsPieces params)).length,
        print mem string size.toNat (fullText text (paramsPieces params))) := by
  have hmasks := ((logged_mask string mem hc.left.left.left).mask hc.left.left).mask hc.left
  rw [pcmParamsToString_eq]
  refine Prod.ext ?_ ?_
  · show ofUInt _ = _
    rw [ofUInt, (hmasks.foldl hc).offset]
    rfl
  · exact hmasks.foldl_mem (rangePieces params).dropLast hc

theorem pcmParamsToString_outside (params : Option SndPcmHwParams) (hs : size.toNat ≤ intMax) {i : Int}
    (hi : i < string ∨ string + size.toNat ≤ i) : (pcmParamsToString text params string size mem).2 i = mem i := by
  rw [pcmParamsToString_eq]
  dsimp only
  rw [foldl_strlog_outside hs hi, maskLog_outside hs hi, maskLog_outside hs hi]
  exact pcmMaskToString_outside hs hi ..

/-- What a buffer holds after `snprintf` has printed a text into it. -/
structure HoldsText (string : Int) (size : Nat) (t : List UInt8) (before after : Memory) : Prop where
  chars : ∀ k < min (size - 1) t.length, t[k]? = some (after (string + k))
  nul : 0 < size → after (string + (min (size - 1) t.length : Nat)) = 0
  outside : ∀ i, i < string ∨ string + size ≤ i → after i = before i

theorem holdsText_print (string : Int) (size : Nat) (t : List UInt8) (mem : Memory) :
    HoldsText string size t mem (print mem string size t) where
  chars := fun _ hk => print_text t hk
  nul := fun hs => print_nul hs t
  outside := fun _ hi => print_outside t hi

/-- A call that prints a text as one `snprintf` of it would. -/
structure LikeSnprintf (call : Int → UInt32 → Memory → Int × Memory) (t : List UInt8) : Prop where
  returns : ∀ string (size : UInt32) mem, size.toNat ≤ intMax → (call string size mem).1 = t.length
  holds : ∀ string (size : UInt32) mem, size.toNat ≤ intMax →
    HoldsText string size.toNat t mem (call string size mem).2
  whole : ∀ string (size : UInt32) mem, size.toNat = t.length + 1 →
    (∀ k (hk : k < t.length), (call string size mem).2 (string + k) = t[k]) ∧
    (call string size mem).2 (string + t.length) = 0

theorem countable_of_total {ps : List Piece} (h : (fullText text ps).length ≤ intMax) : Countable text size ps where
  piece := fun p hp => by
    have hle : (text p).length ≤ (fullText text ps).length := by
      rw [fullText, List.length_flatMap]
      exact List.single_le_sum (by simp) _ (List.mem_map_of_mem hp)
    omega
  total := by
    unfold intMax at h
    omega
  clip := by omega

theorem LikeSnprintf.of_total {params : Option SndPcmHwParams}
    (h : (fullText text (paramsPieces params)).length ≤ intMax) :
    LikeSnprintf (pcmParamsToString text params) (fullText text (paramsPieces params)) := by
  constructor
  · intro string size mem _
    rw [pcmParamsToString_spec (countable_of_total h)]
    exact wrapInt_of_fits (by omega) (by unfold intMax at h; omega)
  · intro string size mem _
    rw [pcmParamsToString_spec (countable_of_total h)]
    exact holdsText_print ..
  · intro string size mem hs
    rw [pcmParamsToString_spec (countable_of_total h)]
    have ht := holdsText_print string size.toNat (fullText text (paramsPieces params)) mem
    constructor
    · intro k hk
      have hchar := ht.chars k (by omega)
      rw [List.getElem?_eq_getElem hk] at hchar
      exact (Option.some.inj hchar).symm
    · have hend : min (size.toNat - 1) (fullText text (paramsPieces params)).length =
          (fullText text (paramsPieces params)).length := by omega
      have hnul := ht.nul (by omega)
      rwa [hend] at hnul

/-- `pcm_params_to_string` is one `snprintf` of the whole text wherever an `int` can tell its length. The buffer is
right for longer texts, too, as long as the offset can count them, and nothing outside it is written however long they
are. -/
theorem pcmParamsToString_likeSnprintf (text : Piece → List UInt8) (params : Option SndPcmHwParams) :
    ((fullText text (paramsPieces params)).length ≤ intMax →
      LikeSnprintf (pcmParamsToString text params) (fullText text (paramsPieces params))) ∧
      ((∀ p ∈ paramsPieces params, (text p).length ≤ intMax) →
        (fullText text (paramsPieces params)).length < 2 ^ 32 → ∀ string (size : UInt32) mem, size.toNat ≤ intMax →
          HoldsText string size.toNat (fullText text (paramsPieces params)) mem
            (pcmParamsToString text params string size mem).2) ∧
      ∀ (string : Int) (size : UInt32) mem, size.toNat ≤ intMax → ∀ i, i < string ∨ string + size.toNat ≤ i →
        (pcmParamsToString text params string size mem).2 i = mem i := by
  refine ⟨LikeSnprintf.of_total, fun hp ht string size mem hs => ?_, fun _ _ _ hs _ hi =>
    pcmParamsToString_outside params hs hi⟩
  rw [pcmParamsToString_spec ⟨hp, ht, by omega⟩]
  exact holdsText_print ..

/-- Without parameters five lines are left. -/
theorem pcmParamsToString_likeSnprintf_null :
    LikeSnprintf (pcmParamsToString (fun _ => [65]) none) [65, 65, 65, 65, 65] :=
  (pcmParamsToString_likeSnprintf (fun _ => [65]) none).1 (by decide)

theorem huge_returns (string : Int) (mem : Memory) {text : Piece → List UInt8} (htext : ∀ p, (text p).length = 2 ^ 29) :
    (fullText text (paramsPieces none)).length = 5 * 2 ^ 29 ∧
      (pcmParamsToString text none string 0 mem).1 = wrapInt (5 * 2 ^ 29) := by
  have hlen : (fullText text (paramsPieces none)).length = 5 * 2 ^ 29 := by
    have hpieces : paramsPieces none = rangePieces none := rfl
    rw [hpieces, fullText, List.length_flatMap]
    simp only [rangePieces, List.map_cons, List.map_nil, htext, List.sum_cons, List.sum_nil]
    norm_num
  refine ⟨hlen, ?_⟩
  have hpiece : ∀ p ∈ paramsPieces none, (text p).length ≤ intMax := by
    intro p _
    rw [htext]
    decide
  rw [pcmParamsToString_spec ⟨hpiece, by omega, by simp⟩, hlen]
  rfl

/-- Five lines of half a gibibyte each are longer than an `int` can tell. -/
theorem not_likeSnprintf_huge :
    ¬ LikeSnprintf (pcmParamsToString (fun _ => .replicate (2 ^ 29) 65) none)
      (fullText (fun _ => .replicate (2 ^ 29) 65) (paramsPieces none)) := by
  intro h
  obtain ⟨hlen, hret⟩ := huge_returns 0 (fun _ => 0) fun _ => List.length_replicate (a := (65 : UInt8))
  have hclaim := h.returns 0 0 (fun _ => 0) (by decide)
  rw [hret, hlen] at hclaim
  exact absurd hclaim (by decide)

end

end Tinyalsa
