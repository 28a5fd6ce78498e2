import ClavenarSdk.Execution.Fixture

/-!
# The size of a response body

The chunks of a body are read up to a limit. What the loop holds after some chunks is what it
returns when no others follow, so statements about every prefix of the chunks are statements
about every moment of the reading.
-/

namespace ClavenarSdk

/-! ### Reading chunk by chunk -/

/-- Reading on after some chunks. -/
theorem readChunks_append (limit : ℕ) (body : List UInt8)
    (read rest : List (Except String (List UInt8))) :
    readChunks limit body (read ++ rest) =
      readChunks limit body read >>= fun held => readChunks limit held rest := by
  induction read generalizing body with
  | nil => rfl
  | cons received read ih =>
    cases received with
    | error error => rfl
    | ok chunk =>
      simp only [List.cons_append, readChunks]
      split_ifs
      · rfl
      · rfl
      · exact ih _

/-- Chunks within the limit are appended; the first one beyond it ends the reading, and whatever
follows it is not looked at. -/
theorem readChunks_map_ok {limit : ℕ} (hlimit : limit < 2 ^ 64) {body : List UInt8}
    (hbody : body.length ≤ limit) (chunks : List (List UInt8))
    (rest : List (Except String (List UInt8))) :
    readChunks limit body (chunks.map .ok ++ rest) =
      if limit < (body ++ chunks.flatten).length then .error (.responseTooLarge limit)
      else readChunks limit (body ++ chunks.flatten) rest := by
  induction chunks generalizing body with
  | nil =>
    have hfits : ¬limit < (body ++ [].flatten).length := by
      rw [List.flatten_nil, List.append_nil]
      omega
    rw [if_neg hfits, List.map_nil, List.nil_append, List.flatten_nil, List.append_nil]
  | cons chunk chunks ih =>
    have hall : (body ++ (chunk :: chunks).flatten).length =
        body.length + chunk.length + chunks.flatten.length := by
      rw [List.flatten_cons, List.length_append, List.length_append, Nat.add_assoc]
    simp only [List.map_cons, List.cons_append, readChunks]
    by_cases hbeyond : limit < body.length + chunk.length
    · have hend : limit < (body ++ (chunk :: chunks).flatten).length := by omega
      rw [if_pos hbeyond, if_pos hend, ite_self]
    · have hadd : ¬2 ^ 64 ≤ body.length + chunk.length := by omega
      have hnext : (body ++ chunk).length ≤ limit := by
        rw [List.length_append]
        omega
      rw [if_neg hadd, if_neg hbeyond, ih hnext, List.flatten_cons, List.append_assoc]

/-- The buffer stays within the limit. -/
theorem length_le_of_readChunks {limit : ℕ} {body held : List UInt8}
    (hbody : body.length ≤ limit) {read : List (Except String (List UInt8))}
    (h : readChunks limit body read = .ok held) : held.length ≤ limit := by
  induction read generalizing body with
  | nil =>
    obtain rfl : body = held := by simpa [readChunks] using h
    exact hbody
  | cons received read ih =>
    cases received with
    | error error => exact absurd h (by simp [readChunks])
    | ok chunk =>
      simp only [readChunks] at h
      split_ifs at h with hadd hbeyond
      have hnext : (body ++ chunk).length ≤ limit := by
        rw [List.length_append]
        omega
      exact ih hnext h

/-- Either every chunk arrives or a transport error ends them. -/
theorem chunks_cases (received : List (Except String (List UInt8))) :
    (∃ chunks : List (List UInt8), received = chunks.map .ok) ∨
      ∃ (chunks : List (List UInt8)) (error : String) (rest : List (Except String (List UInt8))),
        received = chunks.map .ok ++ .error error :: rest := by
  induction received with
  | nil => exact .inl ⟨[], rfl⟩
  | cons first received ih =>
    cases first with
    | error error => exact .inr ⟨[], error, received, rfl⟩
    | ok chunk =>
      obtain ⟨chunks, rfl⟩ | ⟨chunks, error, rest, rfl⟩ := ih
      · exact .inl ⟨chunk :: chunks, rfl⟩
      · exact .inr ⟨chunk :: chunks, error, rest, rfl⟩

/-- The loop returns the concatenation of the chunks if every one arrives and together they keep
within the limit, and nothing otherwise. -/
theorem readChunks_eq_ok_iff {limit : ℕ} (hlimit : limit < 2 ^ 64)
    {received : List (Except String (List UInt8))} {b : List UInt8} :
    readChunks limit [] received = .ok b ↔
      ∃ chunks : List (List UInt8), received = chunks.map .ok ∧
        chunks.flatten.length ≤ limit ∧ b = chunks.flatten := by
  have hstart : ([] : List UInt8).length ≤ limit := Nat.zero_le _
  constructor
  · intro h
    obtain ⟨chunks, rfl⟩ | ⟨chunks, error, rest, rfl⟩ := chunks_cases received
    · rw [← List.append_nil (chunks.map _), readChunks_map_ok hlimit hstart,
        List.nil_append] at h
      split_ifs at h with hbeyond
      have hb : chunks.flatten = b := by simpa [readChunks] using h
      exact ⟨chunks, rfl, by omega, hb.symm⟩
    · rw [readChunks_map_ok hlimit hstart] at h
      split_ifs at h
      exact absurd h (by simp [readChunks])
  · rintro ⟨chunks, rfl, hlength, rfl⟩
    have hfits : ¬limit < ([] ++ chunks.flatten).length := by
      rw [List.nil_append]
      omega
    rw [← List.append_nil (chunks.map _), readChunks_map_ok hlimit hstart, if_neg hfits,
      List.nil_append, readChunks]

/-! ### The body of a response -/

/-- A declared length over the limit is refused before anything is read. -/
theorem readBodyLimited_of_declared {response : Response} {limit n : ℕ}
    (hn : n ∈ response.contentLength) (h : limit < n) :
    readBodyLimited response limit = .error (.responseTooLarge limit) := by
  have hany : response.contentLength.any (limit < ·) = true := by
    rw [Option.mem_def.mp hn]
    simpa using h
  rw [readBodyLimited, if_pos hany]

/-- When the declared length is within the limit the chunks decide. -/
theorem readBodyLimited_of_le {response : Response} {limit : ℕ}
    (h : ∀ n ∈ response.contentLength, n ≤ limit) :
    readBodyLimited response limit = readChunks limit [] response.chunks := by
  have hany : ¬response.contentLength.any (limit < ·) = true := by
    cases hlength : response.contentLength with
    | none => exact Bool.false_ne_true
    | some n =>
      have hn : n ≤ limit := h n hlength
      simpa using hn
  rw [readBodyLimited, if_neg hany]

/-- A declared length beyond the limit gives the same error as chunks beyond it. -/
theorem readBodyLimited_eq_tooLarge {response : Response} {limit : ℕ}
    (h : readChunks limit [] response.chunks = .error (.responseTooLarge limit)) :
    readBodyLimited response limit = .error (.responseTooLarge limit) := by
  unfold readBodyLimited
  split_ifs
  · rfl
  · exact h

/-- A body is read if neither its declared length nor its chunks exceed the limit. -/
theorem readBodyLimited_eq_ok_iff {response : Response} {limit : ℕ} (hlimit : limit < 2 ^ 64)
    {b : List UInt8} :
    readBodyLimited response limit = .ok b ↔
      (∀ n ∈ response.contentLength, n ≤ limit) ∧
        ∃ chunks : List (List UInt8), response.chunks = chunks.map .ok ∧
          chunks.flatten.length ≤ limit ∧ b = chunks.flatten := by
  by_cases hdeclared : ∀ n ∈ response.contentLength, n ≤ limit
  · rw [readBodyLimited_of_le hdeclared, readChunks_eq_ok_iff hlimit]
    exact ⟨fun h => ⟨hdeclared, h⟩, fun h => h.2⟩
  · refine ⟨fun h => ?_, fun h => absurd h.1 hdeclared⟩
    simp only [not_forall, not_le] at hdeclared
    obtain ⟨n, hn, hbeyond⟩ := hdeclared
    rw [readBodyLimited_of_declared hn hbeyond] at h
    exact absurd h nofun

/-! ### The text of a response -/

/-- The text that is decoded of bytes has these bytes. -/
theorem utf8Bytes_of_textOfUtf8 {bytes : List UInt8} {text : String}
    (h : textOfUtf8 bytes = some text) : utf8Bytes text = bytes := by
  unfold textOfUtf8 String.fromUTF8? at h
  split_ifs at h with hvalid
  rw [← Option.some.inj h]
  rfl

section

variable [Crates]

/-- A text is read of exactly the bytes that encode it. -/
theorem readTextLimited_eq_ok_iff {response : Response} {s : String} :
    readTextLimited response = .ok s ↔
      readBodyLimited response defaultResponseBodyLimit = .ok (utf8Bytes s) := by
  unfold readTextLimited
  cases hbody : readBodyLimited response defaultResponseBodyLimit with
  | error error =>
    rw [error_bind]
    exact ⟨nofun, nofun⟩
  | ok body =>
    rw [ok_bind]
    constructor
    · intro h
      cases htext : textOfUtf8 body with
      | none => simp [htext] at h
      | some text =>
        simp only [htext, Except.ok.injEq] at h
        rw [← h, utf8Bytes_of_textOfUtf8 htext]
    · intro h
      rw [Except.ok.inj h, textOfUtf8_utf8Bytes]

/-- Response bodies are bounded exactly. A body is returned if and only if its declared length and
its total length are within the limit and no transport error occurs, and then it is made of all
chunks in order. A declared length or a prefix of the chunks beyond the limit ends the reading,
whatever follows. The buffer never exceeds the limit, and an addition of lengths that would not
fit into 64 bits is refused. A text is returned only for its own bytes. -/
theorem body_bounded_exactly (limit : UInt64) (response : Response) :
    (∀ b, readBodyLimited response limit.toNat = .ok b ↔
      (∀ n ∈ response.contentLength, n ≤ limit.toNat) ∧
        ∃ chunks : List (List UInt8), response.chunks = chunks.map .ok ∧
          chunks.flatten.length ≤ limit.toNat ∧ b = chunks.flatten) ∧
    (∀ n ∈ response.contentLength, limit.toNat < n →
      readBodyLimited response limit.toNat = .error (.responseTooLarge limit.toNat)) ∧
    (∀ (chunks : List (List UInt8)) (rest : List (Except String (List UInt8))),
      response.chunks = chunks.map .ok ++ rest → limit.toNat < chunks.flatten.length →
        readBodyLimited response limit.toNat = .error (.responseTooLarge limit.toNat)) ∧
    (∀ (read rest : List (Except String (List UInt8))) (held : List UInt8),
      response.chunks = read ++ rest → readChunks limit.toNat [] read = .ok held →
        held.length ≤ limit.toNat) ∧
    (∀ (read rest : List (Except String (List UInt8))) (held chunk : List UInt8),
      response.chunks = read ++ .ok chunk :: rest → readChunks limit.toNat [] read = .ok held →
        2 ^ 64 ≤ held.length + chunk.length →
          readBodyLimited response limit.toNat = .error (.responseTooLarge limit.toNat)) ∧
    ∀ s, readTextLimited response = .ok s →
      readBodyLimited response defaultResponseBodyLimit = .ok (utf8Bytes s) := by
  have hlimit : limit.toNat < 2 ^ 64 := limit.toNat_lt
  have hstart : ([] : List UInt8).length ≤ limit.toNat := Nat.zero_le _
  refine ⟨fun b => readBodyLimited_eq_ok_iff hlimit, fun n => readBodyLimited_of_declared, ?_,
    fun read rest held _ hheld => length_le_of_readChunks hstart hheld, ?_,
    fun s => readTextLimited_eq_ok_iff.mp⟩
  · intro chunks rest hchunks hbeyond
    apply readBodyLimited_eq_tooLarge
    rw [hchunks, readChunks_map_ok hlimit hstart, List.nil_append, if_pos hbeyond]
  · intro read rest held chunk hchunks hheld hadd
    apply readBodyLimited_eq_tooLarge
    rw [hchunks, readChunks_append, hheld, ok_bind, readChunks, if_pos hadd]

end

namespace Fixture

attribute [local instance] crates

/-- A response that declares two bytes, sends four and then breaks off. -/
def oversized : Response := ⟨200, some 2, [.ok [1, 2], .ok [3, 4], .error "reset"]⟩

/-- A body that is too large is refused while it is read and, for what it declares, before. -/
theorem body_bounded_exactly_oversized :
    readBodyLimited oversized 3 = .error (.responseTooLarge 3) ∧
      readBodyLimited oversized 1 = .error (.responseTooLarge 1) := by
  constructor
  · exact (body_bounded_exactly 3 oversized).2.2.1 [[1, 2], [3, 4]] [.error "reset"] rfl (by decide)
  · exact (body_bounded_exactly 1 oversized).2.1 2 rfl (by decide)

end Fixture

end ClavenarSdk
