import LanguageClient.Proofs.Text.Reading
import LanguageClient.Protocol.Frame

/-!
# Framed messages are read as they were sent

A stream is a row of frames, each behind any number of further header lines. Reading it gives the
messages in order and then finds that the stream has ended. If the stream breaks off anywhere, the
messages whose bytes have all arrived are read, and then reading fails: no part of a frame is taken
for a message.
-/

namespace LanguageClient

namespace Frame

/-- The byte that ends a line. -/
def feed : UInt8 := 0x0A

theorem takeLine?_append_feed {line : List UInt8} (hline : feed ∉ line) (rest : List UInt8) :
    takeLine? (line ++ feed :: rest) = some (line ++ [feed], rest) := by
  induction line with
  | nil => rfl
  | cons byte line ih =>
    have hbyte : (byte == 0x0A) = false :=
      beq_eq_false_iff_ne.mpr (List.ne_of_not_mem_cons hline).symm
    rw [List.cons_append, takeLine?, hbyte, if_neg Bool.false_ne_true,
      ih (List.not_mem_of_not_mem_cons hline)]
    rfl

theorem takeLine?_eq_none {bytes : List UInt8} (hbytes : feed ∉ bytes) :
    takeLine? bytes = none := by
  induction bytes with
  | nil => rfl
  | cons byte rest ih =>
    have hbyte : (byte == 0x0A) = false :=
      beq_eq_false_iff_ne.mpr (List.ne_of_not_mem_cons hbytes).symm
    rw [takeLine?, hbyte, if_neg Bool.false_ne_true, ih (List.not_mem_of_not_mem_cons hbytes)]

/-- What a complete header line leads to. -/
theorem readHeaders_line (ended : Bool) (length? : Option Nat) {line : List UInt8}
    (hline : feed ∉ line) (rest : List UInt8) :
    readHeaders ended length? (line ++ feed :: rest) =
      match readHeader (line ++ [feed]) with
      | .stop =>
        match length? with
        | some length => .done length rest
        | none => .failed .missingLength
      | .length length => readHeaders ended (some length) rest
      | .other => readHeaders ended length? rest
      | .bad => .failed .badHeader := by
  rw [readHeaders]
  split
  · rename_i found
    rw [takeLine?_append_feed hline] at found
    obtain ⟨rfl, rfl⟩ := Prod.mk.inj (Option.some.inj found)
    rfl
  · rename_i found
    rw [takeLine?_append_feed hline] at found
    cases found

/-- Without another line feed the header block of an ended stream cannot go on: it fails, or the
rest is a blank line and nothing comes after it. -/
theorem readHeaders_end (length? : Option Nat) {bytes : List UInt8} (hbytes : feed ∉ bytes) :
    (∃ error, readHeaders true length? bytes = .failed error) ∨
      ∃ length, length? = some length ∧ readHeaders true length? bytes = .done length [] := by
  rw [readHeaders]
  split
  · rename_i found
    rw [takeLine?_eq_none hbytes] at found
    cases found
  · rw [if_neg (by simp)]
    split
    · exact Or.inl ⟨_, rfl⟩
    · split
      · cases length? with
        | none => exact Or.inl ⟨_, rfl⟩
        | some length => exact Or.inr ⟨length, rfl, rfl⟩
      · exact Or.inl ⟨_, rfl⟩
      · exact Or.inl ⟨_, rfl⟩
      · exact Or.inl ⟨_, rfl⟩

/-- A header line that may stand in front of the one that tells the length. -/
structure IsExtra (line : String) : Prop where
  unbroken : '\n' ∉ line.toList
  visible : trimBlank line ≠ ""
  other : ¬ lengthHeader <+: (trimBlank line).toList

/-- A header line and its line feed. -/
def writeLine (line : String) : List UInt8 :=
  Utf8.encode line ++ [feed]

theorem feed_notMem_encode {line : String} (hline : '\n' ∉ line.toList) :
    feed ∉ Utf8.encode line :=
  Utf8.feed_notMem_encodeChars hline

/-- The line feed does not matter for what a header line says. -/
theorem readHeader_encodeChars (chars : List Char) :
    readHeader (Utf8.encodeChars chars ++ [feed]) =
      if (dropEndsWhile isBlank chars).isEmpty then .stop
      else if lengthHeader.isPrefixOf (dropEndsWhile isBlank chars) then
        match Numeral.readChars (Nat.pow 2 lengthBits)
            (dropEndsWhile isBlank ((dropEndsWhile isBlank chars).drop lengthHeader.length)) with
        | .ok bytes => .length bytes
        | .error _ => .bad
      else .other := by
  have hbytes : Utf8.encodeChars chars ++ [feed] = Utf8.encodeChars (chars ++ ['\n']) := by
    rw [Utf8.encodeChars_append]
    rfl
  rw [hbytes]
  unfold readHeader
  rw [Utf8.decode?_encodeChars]
  dsimp only
  rewrite [String.toList_ofList, dropEndsWhile_concat (by decide)]
  rfl

theorem IsExtra.readHeader {line : String} (hextra : IsExtra line) :
    Frame.readHeader (writeLine line) = .other := by
  obtain ⟨-, hvisible, hother⟩ := hextra
  rw [trimBlank, String.toList_ofList] at hother
  have hnonempty : (dropEndsWhile isBlank line.toList).isEmpty = false := by
    rw [List.isEmpty_eq_false_iff]
    intro hnil
    rw [trimBlank, hnil] at hvisible
    exact hvisible rfl
  rw [writeLine, Utf8.encode, readHeader_encodeChars, hnonempty, if_neg Bool.false_ne_true,
    if_neg (by rwa [List.isPrefixOf_iff_prefix])]

/-- The header line that tells the length, up to its line feed. -/
def lengthLine (length : Nat) : List Char :=
  lengthHeader ++ ' ' :: Nat.toDigits 10 length ++ ['\r']

theorem feed_notMem_lengthLine (length : Nat) :
    feed ∉ Utf8.encodeChars (lengthLine length) := by
  refine Utf8.feed_notMem_encodeChars ?_
  have hdigits : '\n' ∉ Nat.toDigits 10 length :=
    fun hfeed => absurd (Nat.isDigit_of_mem_toDigits (by decide) (by decide) hfeed) (by decide)
  have hheader : '\n' ∉ lengthHeader := by decide
  simp [lengthLine, hdigits, hheader]

theorem readHeader_lengthLine {length : Nat} (hlength : length ≤ maxBody) :
    readHeader (Utf8.encodeChars (lengthLine length) ++ [feed]) = .length length := by
  have hdigits : ∀ c ∈ Nat.toDigits 10 length, c.isDigit = true :=
    fun c hc => Nat.isDigit_of_mem_toDigits (by decide) (by decide) hc
  have hvisible : ∀ c ∈ Nat.toDigits 10 length, isBlank c = false :=
    fun c hc => isBlank_of_isDigit (hdigits c hc)
  have hline : dropEndsWhile isBlank (lengthLine length) =
      lengthHeader ++ ' ' :: Nat.toDigits 10 length := by
    rw [lengthLine, dropEndsWhile_concat (by decide)]
    refine dropEndsWhile_eq_self ?_ ?_
    · intro c hc
      obtain rfl := Option.some.inj hc
      decide
    · intro c hc
      rw [List.append_cons, List.getLast?_append,
        List.getLast?_eq_some_getLast Nat.toDigits_ne_nil, Option.some_or] at hc
      obtain rfl := Option.some.inj hc
      exact hvisible _ (List.getLast_mem Nat.toDigits_ne_nil)
  have hvalue : dropEndsWhile isBlank (' ' :: Nat.toDigits 10 length) = Nat.toDigits 10 length := by
    rw [dropEndsWhile_cons (by decide)]
    exact dropEndsWhile_eq_self (fun c hc => hvisible c (List.mem_of_head? hc))
      fun c hc => hvisible c (List.mem_of_getLast? hc)
  have hbits : length < Nat.pow 2 lengthBits := by
    unfold maxBody at hlength
    have hpow : Nat.pow 2 63 - 1 < Nat.pow 2 lengthBits := by decide
    omega
  rw [readHeader_encodeChars, hline, if_neg (by simp), if_pos (by simp), List.drop_left, hvalue,
    Numeral.readChars_toDigits hbits]

theorem writeBody_eq (body : List UInt8) :
    writeBody body =
      Utf8.encodeChars (lengthLine body.length) ++ feed :: (0x0D :: feed :: body) := by
  have hheader : lengthHeader ++ ' ' :: Nat.toDigits 10 body.length ++ "\r\n\r\n".toList =
      lengthLine body.length ++ ['\n', '\r', '\n'] := by
    simp [lengthLine]
  unfold writeBody
  dsimp only
  rw [hheader, Utf8.encodeChars_append]
  simp [Utf8.encodeChars]
  rfl

/-- What breaks off within two joined parts breaks off within the first, or holds all of it. -/
theorem prefix_append_cases {cut front back : List UInt8} (hcut : cut <+: front ++ back) :
    (cut <+: front ∧ cut.length < front.length) ∨ ∃ rest, cut = front ++ rest ∧ rest <+: back := by
  rcases Nat.lt_or_ge cut.length front.length with hshort | hlong
  · have hfront := List.prefix_of_prefix_length_le hcut (List.prefix_append ..)
      (Nat.le_of_lt hshort)
    exact Or.inl ⟨hfront, hshort⟩
  · obtain ⟨rest, rfl⟩ := List.prefix_of_prefix_length_le (List.prefix_append ..) hcut hlong
    exact Or.inr ⟨rest, rfl, (List.prefix_append_right_inj front).mp hcut⟩

/-- What breaks off within a line has no line feed. -/
theorem prefix_line_cases {cut line more : List UInt8} (hline : feed ∉ line)
    (hcut : cut <+: line ++ feed :: more) :
    (feed ∉ cut ∧ cut.length ≤ line.length) ∨
      ∃ rest, cut = line ++ feed :: rest ∧ rest <+: more := by
  rcases prefix_append_cases hcut with ⟨hfront, hshort⟩ | ⟨rest, rfl, hrest⟩
  · exact Or.inl ⟨fun hfeed => hline (hfront.subset hfeed), Nat.le_of_lt hshort⟩
  · cases rest with
    | nil => exact Or.inl (by simpa using hline)
    | cons byte rest =>
      obtain ⟨rfl, htail⟩ := List.cons_prefix_cons.mp hrest
      exact Or.inr ⟨rest, rfl, htail⟩

section Headers

variable {headers : List String}

/-- The bytes of header lines. -/
def writeLines (headers : List String) : List UInt8 :=
  headers.flatMap writeLine

theorem writeLines_cons_append (line : String) (rest : List UInt8) :
    writeLines (line :: headers) ++ rest =
      Utf8.encode line ++ feed :: (writeLines headers ++ rest) := by
  simp [writeLines, writeLine]

/-- Further header lines do not matter. -/
theorem readHeaders_writeLines (ended : Bool) (length? : Option Nat)
    (hheaders : ∀ line ∈ headers, IsExtra line) (rest : List UInt8) :
    readHeaders ended length? (writeLines headers ++ rest) = readHeaders ended length? rest := by
  induction headers with
  | nil => rfl
  | cons line headers ih =>
    obtain ⟨hline, hheaders⟩ := List.forall_mem_cons.mp hheaders
    have hreads : readHeader (Utf8.encode line ++ [feed]) = .other := hline.readHeader
    rw [writeLines_cons_append, readHeaders_line ended length? (feed_notMem_encode hline.unbroken),
      hreads]
    exact ih hheaders

/-- A stream that breaks off within the further header lines cannot be read. -/
theorem readHeaders_prefix_writeLines (hheaders : ∀ line ∈ headers, IsExtra line)
    {cut more : List UInt8} (hcut : cut <+: writeLines headers ++ more) :
    (∃ error, readHeaders true none cut = .failed error ∧
        cut.length < (writeLines headers).length) ∨
      ∃ rest, cut = writeLines headers ++ rest ∧ rest <+: more := by
  induction headers generalizing cut with
  | nil => exact Or.inr ⟨cut, rfl, hcut⟩
  | cons line headers ih =>
    obtain ⟨hline, hheaders⟩ := List.forall_mem_cons.mp hheaders
    have hlength : (writeLines (line :: headers)).length =
        (Utf8.encode line).length + ((writeLines headers).length + 1) := by
      have hbytes := congrArg List.length (@writeLines_cons_append headers line [])
      simpa only [List.append_nil, List.length_append, List.length_cons] using hbytes
    have hunbroken := feed_notMem_encode hline.unbroken
    rw [writeLines_cons_append] at hcut
    rcases prefix_line_cases hunbroken hcut with ⟨hfeed, hshort⟩ | ⟨rest, rfl, hrest⟩
    · rcases readHeaders_end none hfeed with ⟨error, herror⟩ | ⟨length, hnone, -⟩
      · exact Or.inl ⟨error, herror, by omega⟩
      · cases hnone
    · have hreads : readHeader (Utf8.encode line ++ [feed]) = .other := hline.readHeader
      rcases ih hheaders hrest with ⟨error, herror, hshort⟩ | ⟨rest, rfl, hmore⟩
      · refine Or.inl ⟨error, ?_, ?_⟩
        · rw [readHeaders_line true none hunbroken, hreads]
          exact herror
        · simp only [List.length_append, List.length_cons]
          omega
      · exact Or.inr ⟨rest, (writeLines_cons_append line rest).symm, hmore⟩

end Headers

section Bodies

variable {body : List UInt8} (hfits : body.length ≤ maxBody)
include hfits

/-- The header block of a frame tells the length of its body. -/
theorem readHeaders_writeBody (ended : Bool) (more : List UInt8) :
    readHeaders ended none (writeBody body ++ more) = .done body.length (body ++ more) := by
  have hbytes : writeBody body ++ more =
      Utf8.encodeChars (lengthLine body.length) ++ feed :: ([0x0D] ++ feed :: (body ++ more)) := by
    simp [writeBody_eq]
  have hblank : readHeader ([0x0D] ++ [feed]) = .stop := readHeader_encodeChars ['\r']
  rw [hbytes, readHeaders_line ended none (feed_notMem_lengthLine _), readHeader_lengthLine hfits]
  dsimp only
  rw [readHeaders_line ended (some body.length) (by decide), hblank]

/-- A stream that breaks off within a frame has no header block, or less than the body behind it. -/
theorem readHeaders_prefix_writeBody (hbody : body ≠ []) {cut : List UInt8}
    (hcut : cut <+: writeBody body) (hshort : cut.length < (writeBody body).length) :
    (∃ error, readHeaders true none cut = .failed error) ∨
      ∃ rest, readHeaders true none cut = .done body.length rest ∧ rest.length < body.length := by
  rw [writeBody_eq] at hcut hshort
  rcases prefix_line_cases (feed_notMem_lengthLine _) hcut with ⟨hfeed, -⟩ | ⟨rest, rfl, hrest⟩
  · rcases readHeaders_end none hfeed with herror | ⟨length, hnone, -⟩
    · exact Or.inl herror
    · cases hnone
  · rw [readHeaders_line true none (feed_notMem_lengthLine _), readHeader_lengthLine hfits]
    dsimp only
    have hcarriage : feed ∉ [(0x0D : UInt8)] := by decide
    rcases prefix_line_cases hcarriage hrest with ⟨hfeed, -⟩ | ⟨rest, rfl, -⟩
    · rcases readHeaders_end (some body.length) hfeed with herror | ⟨length, hsome, hdone⟩
      · exact Or.inl herror
      · cases hsome
        exact Or.inr ⟨[], hdone, List.length_pos_iff.mpr hbody⟩
    · have hblank : readHeader ([0x0D] ++ [feed]) = .stop := readHeader_encodeChars ['\r']
      rw [readHeaders_line true (some body.length) hcarriage, hblank]
      refine Or.inr ⟨rest, rfl, ?_⟩
      simp at hshort
      omega

end Bodies

/-- A message on the stream: the header lines in front of its length, and its text. -/
structure Delivery where
  headers : List String
  text : String
  message : Message
  extra : ∀ line ∈ headers, IsExtra line
  parsed : Message.parse text = .ok message
  /-- The text fits into a block of memory. -/
  fits : (Utf8.encode text).length ≤ maxBody

/-- A notification behind a header line that tells its type. -/
def Delivery.initialized : Delivery where
  headers := ["Content-Type: application/vscode-jsonrpc; charset=utf-8\r"]
  text := "\x7b\"jsonrpc\":\"2.0\",\"method\":\"initialized\"\x7d"
  message := .notification ⟨protocolVersion, "initialized", none⟩
  extra := by
    intro line hline
    obtain rfl := List.mem_singleton.mp hline
    exact ⟨by decide, by decide +kernel, by decide +kernel⟩
  parsed := by rfl
  fits := by decide +kernel

namespace Delivery

/-- The bytes of a message with its header lines. -/
def bytes (delivery : Delivery) : List UInt8 :=
  writeLines delivery.headers ++ write delivery.text

/-- The empty text is no message. -/
theorem encode_text_ne_nil (delivery : Delivery) : Utf8.encode delivery.text ≠ [] := by
  intro hnil
  have hdecoded := Utf8.decode?_encode delivery.text
  rw [hnil] at hdecoded
  have hempty : delivery.text = "" := Option.some.inj (hdecoded.symm.trans (by decide))
  have hparsed := delivery.parsed
  rw [hempty] at hparsed
  cases hparsed

/-- A message whose bytes have arrived is read, whatever has arrived after them. -/
theorem read_append (delivery : Delivery) (ended : Bool) (more : List UInt8) :
    read ended (delivery.bytes ++ more) = .done delivery.message more := by
  have hheaders : readHeaders ended none (delivery.bytes ++ more) =
      .done (Utf8.encode delivery.text).length (Utf8.encode delivery.text ++ more) := by
    rw [bytes, List.append_assoc, readHeaders_writeLines ended none delivery.extra, write,
      readHeaders_writeBody delivery.fits]
  have hbody : readBody (Utf8.encode delivery.text) = .ok delivery.message := by
    rw [readBody, Utf8.decode?_encode]
    dsimp only
    rw [delivery.parsed]
  have hfits := delivery.fits
  rw [read, hheaders]
  dsimp only
  rw [if_neg (by omega), if_neg (by simp), List.take_left, List.drop_left, hbody]

/-- Nothing is read if only a part of the bytes of a message ever arrives. -/
theorem read_prefix (delivery : Delivery) {cut : List UInt8} (hcut : cut <+: delivery.bytes)
    (hshort : cut.length < delivery.bytes.length) : ∃ error, read true cut = .failed error := by
  have hheaders : (∃ error, readHeaders true none cut = .failed error) ∨
      ∃ length rest, readHeaders true none cut = .done length rest ∧ rest.length < length := by
    rcases readHeaders_prefix_writeLines delivery.extra hcut with
      ⟨error, herror, -⟩ | ⟨rest, rfl, hrest⟩
    · exact Or.inl ⟨error, herror⟩
    · rw [readHeaders_writeLines true none delivery.extra]
      have hframe : rest.length < (write delivery.text).length := by
        simpa [bytes] using hshort
      have hbody := delivery.encode_text_ne_nil
      rcases readHeaders_prefix_writeBody delivery.fits hbody hrest hframe with
        herror | ⟨rest, hdone, hlength⟩
      · exact Or.inl herror
      · exact Or.inr ⟨_, rest, hdone, hlength⟩
  rcases hheaders with ⟨error, herror⟩ | ⟨length, rest, hdone, hlength⟩
  · exact ⟨error, by rw [read, herror]⟩
  · rw [read, hdone]
    dsimp only
    by_cases hsize : maxBody < length
    · exact ⟨.oversized, if_pos hsize⟩
    · exact ⟨.truncated, by rw [if_neg hsize, if_pos hlength, if_pos rfl]⟩

end Delivery

/-- A header block is made of at least one byte. -/
theorem length_of_readHeaders {ended : Bool} {length? : Option Nat} {bytes rest : List UInt8}
    {length : Nat} (hread : readHeaders ended length? bytes = .done length rest) :
    rest.length < bytes.length := by
  -- The blank line that ends the block leaves what comes after it.
  have hfinish : ∀ {length? : Option Nat} {after : List UInt8},
      (match length? with
        | some length => Reading.done length after
        | none => .failed .missingLength) = .done length rest → rest = after := by
    intro length? after hdone
    cases length? <;> cases hdone
    rfl
  fun_induction readHeaders ended length? bytes with
  | case1 _ _ _ _ after htake =>
    rw [hfinish hread]
    exact length_of_takeLine? htake
  | case2 _ _ _ after htake _ _ ih => exact Nat.lt_trans (ih hread) (length_of_takeLine? htake)
  | case3 _ _ _ after htake _ ih => exact Nat.lt_trans (ih hread) (length_of_takeLine? htake)
  | case7 _ bytes _ _ _ hbytes =>
    rw [hfinish hread]
    exact List.length_pos_iff.mpr fun hnil => hbytes (List.isEmpty_iff.mpr hnil)
  | case4 | case5 | case6 | case8 | case9 | case10 => cases hread

/-- Reading a message takes at least one byte. -/
theorem length_of_read {ended : Bool} {bytes rest : List UInt8} {message : Message}
    (hread : read ended bytes = .done message rest) : rest.length < bytes.length := by
  unfold read at hread
  split at hread
  · rename_i length after hheaders
    have hafter := length_of_readHeaders hheaders
    split at hread
    · cases hread
    · split at hread
      · split at hread <;> cases hread
      · split at hread
        · cases hread
          rw [List.length_drop]
          omega
        · cases hread
  · cases hread
  · cases hread

/-- What the calls of `read` on a stream that has ended lead to: messages, and then an error. -/
inductive Reads : List UInt8 → List Message → FrameError → Prop
  | failed {bytes : List UInt8} {error : FrameError} (hread : read true bytes = .failed error) :
      Reads bytes [] error
  | message {bytes rest : List UInt8} {message : Message} {messages : List Message}
      {error : FrameError} (hread : read true bytes = .done message rest)
      (hreads : Reads rest messages error) : Reads bytes (message :: messages) error

/-- `readAll` finds what call after call finds. -/
theorem Reads.readAll_eq {bytes : List UInt8} {messages : List Message} {error : FrameError}
    (hreads : Reads bytes messages error) : readAll bytes = (messages, error) := by
  have hwithin : ∀ fuel, bytes.length < fuel → readAllWithin fuel bytes = (messages, error) := by
    induction hreads with
    | failed hread =>
      intro fuel hfuel
      obtain ⟨fuel, rfl⟩ := Nat.exists_eq_add_one_of_ne_zero (Nat.ne_zero_of_lt hfuel)
      rw [readAllWithin, hread]
    | message hread _ ih =>
      intro fuel hfuel
      obtain ⟨fuel, rfl⟩ := Nat.exists_eq_add_one_of_ne_zero (Nat.ne_zero_of_lt hfuel)
      have hshorter := length_of_read hread
      rw [readAllWithin, hread]
      dsimp only
      rw [ih fuel (by omega)]
  exact hwithin (bytes.length + 1) (Nat.lt_add_one _)

/-- The bytes of a row of messages. -/
def stream (deliveries : List Delivery) : List UInt8 :=
  deliveries.flatMap Delivery.bytes

theorem stream_cons (delivery : Delivery) (deliveries : List Delivery) :
    stream (delivery :: deliveries) = delivery.bytes ++ stream deliveries :=
  List.flatMap_cons

theorem read_nil : read true [] = .failed .closed := by
  rw [read, readHeaders]
  rfl

/-- The messages of a whole stream are read, and then its end is found. -/
theorem reads_whole (deliveries : List Delivery) :
    Reads (stream deliveries) (deliveries.map Delivery.message) .closed := by
  induction deliveries with
  | nil => exact .failed read_nil
  | cons delivery deliveries ih =>
    rw [stream_cons]
    exact .message (delivery.read_append true _) ih

/-- Of a stream that breaks off the messages are read that have arrived as a whole. -/
theorem reads_prefix (deliveries : List Delivery) {cut : List UInt8}
    (hcut : cut <+: stream deliveries) :
    ∃ n ≤ deliveries.length, ∃ error,
      Reads cut ((deliveries.take n).map Delivery.message) error ∧
        ∀ k ≤ deliveries.length, (stream (deliveries.take k)).length ≤ cut.length ↔ k ≤ n := by
  induction deliveries generalizing cut with
  | nil =>
    obtain rfl := List.prefix_nil.mp hcut
    exact ⟨0, Nat.le_refl _, .closed, .failed read_nil, fun k hk => by simpa [stream] using hk⟩
  | cons delivery deliveries ih =>
    rw [stream_cons] at hcut
    rcases prefix_append_cases hcut with ⟨hfront, hshort⟩ | ⟨rest, rfl, hrest⟩
    · obtain ⟨error, herror⟩ := delivery.read_prefix hfront hshort
      refine ⟨0, Nat.zero_le _, error, .failed herror, fun k _ => ?_⟩
      cases k with
      | zero => simp [stream]
      | succ k =>
        rw [List.take_succ_cons, stream_cons, List.length_append]
        omega
    · obtain ⟨n, hn, error, hreads, hinside⟩ := ih hrest
      refine ⟨n + 1, Nat.succ_le_succ hn, error,
        .message (delivery.read_append true rest) hreads, fun k hk => ?_⟩
      cases k with
      | zero => simp [stream]
      | succ k =>
        have hnext := hinside k (Nat.le_of_succ_le_succ hk)
        rw [List.take_succ_cons, stream_cons, List.length_append, List.length_append]
        omega

/-- A stream of framed messages is read as these messages in their order, and then its end is found.
If the stream breaks off anywhere, exactly the messages are read whose bytes have all arrived, and
the next attempt fails. -/
theorem reads_stream (deliveries : List Delivery) :
    Reads (stream deliveries) (deliveries.map Delivery.message) .closed ∧
      readAll (stream deliveries) = (deliveries.map Delivery.message, .closed) ∧
      FrameError.closed.isEnd = true ∧
      FrameError.closed.message? = some "Server closed connection" ∧
      ∀ cut, cut <+: stream deliveries → ∃ n ≤ deliveries.length, ∃ error,
        Reads cut ((deliveries.take n).map Delivery.message) error ∧
          ∀ k ≤ deliveries.length,
            (stream (deliveries.take k)).length ≤ cut.length ↔ k ≤ n :=
  ⟨reads_whole deliveries, (reads_whole deliveries).readAll_eq, rfl, rfl,
    fun _ hcut => reads_prefix deliveries hcut⟩

/-- A stream that breaks off within the text of its only message is read as no message. -/
theorem reads_none_of_initialized :
    (stream [.initialized]).take 100 <+: stream [.initialized] ∧
      ∃ error, Reads ((stream [.initialized]).take 100) [] error := by
  have hcut : (stream [.initialized]).take 100 <+: stream [.initialized] := List.take_prefix ..
  obtain ⟨-, -, -, -, hprefix⟩ := reads_stream [.initialized]
  obtain ⟨n, -, error, hreads, hinside⟩ := hprefix _ hcut
  have hlength : ¬ (stream [.initialized]).length ≤ ((stream [.initialized]).take 100).length := by
    decide +kernel
  have hnone : ¬ 1 ≤ n := fun hn => hlength ((hinside 1 (Nat.le_refl _)).mpr hn)
  obtain rfl : n = 0 := by omega
  exact ⟨hcut, error, hreads⟩

end Frame

end LanguageClient
