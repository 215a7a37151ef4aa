import Licensing.Client.Reading
import Mathlib.Data.List.Basic

/-!
# The size of a body counts, not its chunks

A body is read to its end exactly when neither its declared length nor its size exceeds the limit
and nothing fails. The reading of chunks is told by a reader that takes one arrival after another
(`run_reading`): what it holds grows by one chunk at a time and never beyond the limit
(`length_held_run_le`), as long as everything fits it goes on (`run_chunks`), and at the first chunk
that does not fit it stops (`run_excess`). So the result depends on the bytes alone
(`readBody_eq`), and nothing behind that chunk makes a difference. `keepsWithin` has it all.
-/

namespace Licensing.Client

open Utf8 (Bytes)

variable {service : String} {limit : Nat} {onFailure : Failure → RemoteError} {held : Bytes}
  {chunks : List Bytes} {arrivals later : List Arrival}

namespace Reader

/-! ### One arrival -/

@[simp]
theorem held_reading (held : Bytes) : (reading held).held = held :=
  rfl

/-- No arrival makes a reader hold more than the limit. -/
theorem length_held_take_le (h : held.length ≤ limit) (arrival : Arrival) :
    (take service limit onFailure held arrival).held.length ≤ limit := by
  cases arrival with
  | chunk bytes =>
    rw [take]
    split
    · exact Nat.zero_le limit
    · rw [held_reading, List.length_append]
      omega
  | ending => exact h
  | failure f => exact Nat.zero_le limit

theorem length_held_start_le (declared : Option Nat) :
    (start service limit declared).held.length ≤ limit := by
  rw [start]
  split <;> exact Nat.zero_le limit

/-! ### All that arrives -/

@[simp]
theorem run_done (result : Except RemoteError Bytes) (arrivals : List Arrival) :
    run service limit onFailure (.done result) arrivals = (.done result, arrivals) := by
  rw [run]
  simp

/-- **A reader never holds more than the limit**, whatever arrives: it looks at the size of a chunk
before it takes it. -/
theorem length_held_run_le {reader : Reader} (h : reader.held.length ≤ limit)
    (arrivals : List Arrival) :
    (run service limit onFailure reader arrivals).1.held.length ≤ limit := by
  induction arrivals generalizing reader with
  | nil =>
    rw [run]
    · exact h
    · simp
  | cons arrival arrivals ih =>
    cases reader with
    | reading held =>
      rw [run]
      exact ih (length_held_take_le h arrival)
    | done result =>
      rw [run_done]
      exact h

/-- Chunks that fit are all taken, and held one behind the other. -/
theorem run_chunks (h : held.length + chunks.flatten.length ≤ limit) (later : List Arrival) :
    run service limit onFailure (.reading held) (chunks.map .chunk ++ later) =
      run service limit onFailure (.reading (held ++ chunks.flatten)) later := by
  induction chunks generalizing held with
  | nil => simp
  | cons chunk chunks ih =>
    rw [List.flatten_cons, List.length_append] at h
    have hfits : ¬ limit < held.length + chunk.length := by omega
    have hrest : (held ++ chunk).length + chunks.flatten.length ≤ limit := by
      rw [List.length_append]
      omega
    rw [List.map_cons, List.cons_append, run, take, if_neg hfits, ih hrest, List.flatten_cons,
      List.append_assoc]

/-- **The first chunk that does not fit** is the last that is taken. -/
theorem run_excess {chunk : Bytes} (hfits : held.length + chunks.flatten.length ≤ limit)
    (hexcess : limit < held.length + chunks.flatten.length + chunk.length) (later : List Arrival) :
    run service limit onFailure (.reading held) (chunks.map .chunk ++ .chunk chunk :: later) =
      (.done (.error (tooLarge service limit)), later) := by
  rw [run_chunks hfits, run, take, List.length_append, if_pos hexcess, run_done]

end Reader

open Reader

/-! ### The result of reading -/

/-- Chunks that do not all fit have a first one that does not. -/
theorem exists_excess (held : Bytes) (hheld : held.length ≤ limit)
    (h : limit < held.length + chunks.flatten.length) : ∃ before chunk behind,
      chunks = before ++ chunk :: behind ∧ held.length + before.flatten.length ≤ limit ∧
        limit < held.length + before.flatten.length + chunk.length := by
  induction chunks generalizing held with
  | nil =>
    rw [List.flatten_nil, List.length_nil] at h
    omega
  | cons chunk chunks ih =>
    by_cases hfits : held.length + chunk.length ≤ limit
    · rw [List.flatten_cons, List.length_append] at h
      obtain ⟨before, last, behind, rfl, hbefore, hlast⟩ := ih (held ++ chunk)
        (by rwa [List.length_append]) (by rw [List.length_append]; omega)
      rw [List.length_append] at hbefore hlast
      refine ⟨chunk :: before, last, behind, rfl, ?_, ?_⟩ <;>
        rw [List.flatten_cons, List.length_append] <;> omega
    · exact ⟨[], chunk, chunks, rfl, hheld, by simpa using hfits⟩

/-- **Reading chunks is what a reader does** that holds the chunks read so far. -/
theorem run_reading (failure : Option Failure) (read : List Bytes) :
    (run service limit onFailure (.reading read.reverse.flatten)
      (chunks.map .chunk ++ [failure.elim .ending .failure])).1 =
        .done (readChunks service limit onFailure failure read read.reverse.flatten.length
          chunks) := by
  induction chunks generalizing read with
  | nil => cases failure <;> rfl
  | cons chunk chunks ih =>
    have hread : (chunk :: read).reverse.flatten = read.reverse.flatten ++ chunk := by simp
    rw [List.map_cons, List.cons_append, run, take, readChunks]
    split
    · rw [run_done]
    · rw [← List.length_append, ← hread]
      exact ih (chunk :: read)

theorem run_start (service : String) (limit : Nat) (onFailure : Failure → RemoteError) (r : Reply) :
    (run service limit onFailure (start service limit r.declared) r.arrivals).1 =
      .done (readBody service limit onFailure r) := by
  rw [start, readBody]
  split
  · rw [run_done]
  · exact run_reading r.failure []

/-- **The result of reading**, by sizes alone. -/
theorem readBody_eq (r : Reply) : readBody service limit onFailure r =
    if r.declared.any (limit < ·) ∨ limit < r.chunks.flatten.length
    then .error (tooLarge service limit)
    else r.failure.elim (.ok r.chunks.flatten) fun f ↦ .error (onFailure f) := by
  have hrun := run_start service limit onFailure r
  rw [start] at hrun
  by_cases hdeclared : r.declared.any (limit < ·) = true
  · rw [if_pos hdeclared, run_done] at hrun
    rw [if_pos (.inl hdeclared), ← Reader.done.inj hrun]
  rw [if_neg hdeclared] at hrun
  by_cases hsize : limit < r.chunks.flatten.length
  · -- A reader stops at the first chunk that exceeds the limit, and there is one.
    obtain ⟨before, chunk, behind, hchunks, hfits, hexcess⟩ :=
      exists_excess [] (Nat.zero_le limit) (by simpa using hsize)
    rw [Reply.arrivals, hchunks, List.map_append, List.map_cons, List.append_assoc,
      List.cons_append, run_excess hfits hexcess] at hrun
    rw [if_pos (.inr hsize), ← Reader.done.inj hrun]
  · rw [Reply.arrivals, run_chunks (by simpa using hsize)] at hrun
    rw [if_neg (not_or.2 ⟨hdeclared, hsize⟩)]
    rcases hfailure : r.failure with - | f <;> rw [hfailure] at hrun
    · exact (Reader.done.inj hrun).symm
    · exact (Reader.done.inj hrun).symm

theorem readBody_eq_ok_iff {r : Reply} {body : Bytes} :
    readBody service limit onFailure r = .ok body ↔
      (∀ n, r.declared = some n → n ≤ limit) ∧ r.chunks.flatten.length ≤ limit ∧
        r.failure = none ∧ body = r.chunks.flatten := by
  have hdeclared : r.declared.any (limit < ·) = true ↔ ¬ ∀ n, r.declared = some n → n ≤ limit := by
    cases r.declared <;> simp
  rw [readBody_eq]
  simp only [hdeclared]
  split
  case isTrue h =>
    refine iff_of_false (by simp) fun ⟨hall, hsize, _⟩ ↦ ?_
    exact h.elim (fun hnot ↦ hnot hall) (Nat.not_lt.2 hsize)
  case isFalse h =>
    rw [not_or, not_not, Nat.not_lt] at h
    cases r.failure with
    | none =>
      exact ⟨fun hbody ↦ ⟨h.1, h.2, rfl, (Except.ok.inj hbody).symm⟩,
        fun hbody ↦ congrArg Except.ok hbody.2.2.2.symm⟩
    | some f => simp

/-! ### The statement -/

/-- How the body of a reply is kept within a limit. -/
structure KeepsWithin (service : String) (limit : Nat) (onFailure : Failure → RemoteError) :
    Prop where
  /-- A body is read exactly when neither the declared length nor the size exceeds the limit and
  nothing fails, and then it is what the chunks hold. -/
  ok_iff : ∀ (r : Reply) (body : Bytes), readBody service limit onFailure r = .ok body ↔
    (∀ n, r.declared = some n → n ≤ limit) ∧ r.chunks.flatten.length ≤ limit ∧
      r.failure = none ∧ body = r.chunks.flatten
  /-- The same bytes in other chunks have the same result. -/
  rechunked : ∀ r r' : Reply, r'.declared = r.declared → r'.failure = r.failure →
    r'.chunks.flatten = r.chunks.flatten →
      readBody service limit onFailure r' = readBody service limit onFailure r
  /-- The result is that of a reader, who takes one arrival after another. -/
  reads : ∀ r : Reply,
    (run service limit onFailure (start service limit r.declared) r.arrivals).1 =
      .done (readBody service limit onFailure r)
  /-- It never holds more than the limit, whatever was declared and has arrived. -/
  held : ∀ declared arrivals,
    (run service limit onFailure (start service limit declared) arrivals).1.held.length ≤ limit
  /-- It takes nothing when more than the limit is declared. -/
  declared : ∀ n, limit < n → ∀ arrivals,
    run service limit onFailure (start service limit (some n)) arrivals =
      (.done (.error (.decode service
        ("response body exceeds " ++ toString limit ++ " bytes"))), arrivals)
  /-- And it takes nothing behind the first chunk that exceeds the limit. -/
  stops : ∀ declared, (∀ n, declared = some n → n ≤ limit) →
    ∀ (chunks : List Bytes) (chunk : Bytes), chunks.flatten.length ≤ limit →
      limit < chunks.flatten.length + chunk.length → ∀ later,
      run service limit onFailure (start service limit declared)
        (chunks.map .chunk ++ .chunk chunk :: later) =
          (.done (.error (.decode service
            ("response body exceeds " ++ toString limit ++ " bytes"))), later)

/-- **The size of a body counts, not its chunks.** However a body is cut, it is read or refused
alike, and what is read is the body. -/
theorem keepsWithin (service : String) (limit : Nat) (onFailure : Failure → RemoteError) :
    KeepsWithin service limit onFailure where
  ok_iff _ _ := readBody_eq_ok_iff
  rechunked r r' hdeclared hfailure hchunks := by
    rw [readBody_eq, readBody_eq, hdeclared, hfailure, hchunks]
  reads := run_start service limit onFailure
  held declared arrivals := length_held_run_le (length_held_start_le declared) arrivals
  declared n hn arrivals := by
    have hany : (some n).any (limit < ·) = true := by simpa using hn
    rw [start, if_pos hany, run_done]
    rfl
  stops declared hdeclared chunks chunk hfits hexcess later := by
    have hany : ¬ declared.any (limit < ·) = true := by
      cases declared with
      | none => simp
      | some n => simpa using hdeclared n rfl
    rw [start, if_neg hany, run_excess (by simpa using hfits) (by simpa using hexcess)]
    rfl

end Licensing.Client
