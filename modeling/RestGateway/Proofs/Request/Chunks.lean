import Mathlib.Data.List.Induction
import RestGateway.Request.Collect

/-!
# How a body is cut into chunks

A collector holds what the chunks it took join to, so chunks that fit together can be taken one
after the other. Whether a body fits is decided by all its bytes, and only a body that does not fit
depends on where it is cut: the chunk that goes past the limit is the last one asked for.
-/

namespace RestGateway

namespace Collector

variable {limit : Nat} {c : Collector limit} {chunk : Bytes}

/-- A chunk that fits is taken. -/
theorem exists_of_take?_of_le (h : c.bytes.length + chunk.length ≤ limit) :
    ∃ c', c.take? chunk = some c' ∧ c'.bytes = c.bytes ++ chunk := by
  have hroom : chunk.length ≤ c.room := by
    have := c.filled
    omega
  exact ⟨_, dif_pos hroom, rfl⟩

theorem take?_eq_none_of_lt (h : limit < c.bytes.length + chunk.length) :
    c.take? chunk = none := by
  have hroom : ¬ chunk.length ≤ c.room := by
    have := c.filled
    omega
  exact dif_neg hroom

theorem collect_nil (c : Collector limit) (fault : Option String) :
    c.collect fault [] = fault.elim (.whole c.bytes) .broken := by cases fault <;> rfl

theorem collect_cons_of_take? {c' : Collector limit} (h : c.take? chunk = some c')
    (fault : Option String) (rest : List Bytes) :
    c.collect fault (chunk :: rest) = c'.collect fault rest := by
  simp only [collect, h]

theorem collect_cons_of_full (h : c.take? chunk = none) (fault : Option String)
    (rest : List Bytes) : c.collect fault (chunk :: rest) = .overfull ⟨rest, fault⟩ := by
  simp only [collect, h]

/-- Behind chunks that fit together, a collector goes on with all of them. -/
theorem exists_collect_append (c : Collector limit) (fault : Option String) (front : List Bytes)
    (h : c.bytes.length + front.flatten.length ≤ limit) :
    ∃ c' : Collector limit, c'.bytes = c.bytes ++ front.flatten ∧
      ∀ rest, c.collect fault (front ++ rest) = c'.collect fault rest := by
  induction front generalizing c with
  | nil => exact ⟨c, by simp, fun _ => rfl⟩
  | cons chunk front ih =>
      rw [List.flatten_cons, List.length_append] at h
      have hchunk : c.bytes.length + chunk.length ≤ limit := by omega
      obtain ⟨next, htake, hnext⟩ := exists_of_take?_of_le hchunk
      obtain ⟨last, hlast, hrest⟩ := ih next (by rw [hnext, List.length_append]; omega)
      refine ⟨last, ?_, fun rest => ?_⟩
      · rw [hlast, hnext, List.flatten_cons, List.append_assoc]
      · rw [List.cons_append, collect_cons_of_take? htake, hrest]

end Collector

namespace Body

variable {limit : Nat} {b : Body}

theorem size_eq_length_flatten (b : Body) : b.size = b.chunks.flatten.length := by
  have hfold : ∀ (chunks : List Bytes) (n : Nat),
      chunks.foldl (fun n chunk => n + chunk.length) n = n + chunks.flatten.length := by
    intro chunks
    induction chunks with
    | nil => intro n; rfl
    | cons chunk rest ih =>
        intro n
        rw [List.foldl_cons, ih, List.flatten_cons, List.length_append, Nat.add_assoc]
  rw [size, hfold, Nat.zero_add]

/-- A body that fits is collected to the end of its stream. -/
theorem collect_of_le (h : b.chunks.flatten.length ≤ limit) :
    b.collect limit = b.fault.elim (.whole b.chunks.flatten) .broken := by
  have hfits : (Collector.empty limit).bytes.length + b.chunks.flatten.length ≤ limit := by
    rw [Collector.empty, List.length_nil, Nat.zero_add]
    exact h
  obtain ⟨last, hlast, hrest⟩ := Collector.exists_collect_append _ b.fault b.chunks hfits
  have hend := hrest []
  rw [List.append_nil] at hend
  rw [collect, hend, Collector.collect_nil, hlast]
  rfl

/-- The first chunk that goes past the limit is the last one that is asked for. -/
theorem collect_of_overfull {front : List Bytes} {chunk : Bytes}
    (hfront : front.flatten.length ≤ limit)
    (hchunk : limit < (front ++ [chunk]).flatten.length) (rest : Body) :
    collect ⟨front ++ chunk :: rest.chunks, rest.fault⟩ limit = .overfull rest := by
  have hfits : (Collector.empty limit).bytes.length + front.flatten.length ≤ limit := by
    rw [Collector.empty, List.length_nil, Nat.zero_add]
    exact hfront
  obtain ⟨full, hfull, hrest⟩ := Collector.exists_collect_append _ rest.fault front hfits
  have hnone : full.take? chunk = none := by
    apply Collector.take?_eq_none_of_lt
    rw [hfull, ← List.length_append]
    simpa [Collector.empty] using hchunk
  rw [collect, hrest, Collector.collect_cons_of_full hnone]

/-- Of chunks that do not fit together, one is the first to go past the limit. -/
theorem exists_overfull_chunk {chunks : List Bytes} (h : limit < chunks.flatten.length) :
    ∃ front chunk back, chunks = front ++ chunk :: back ∧ front.flatten.length ≤ limit ∧
      limit < (front ++ [chunk]).flatten.length := by
  induction chunks using List.reverseRecOn with
  | nil => exact absurd h (Nat.not_lt_zero limit)
  | append_singleton chunks last ih =>
      by_cases hfits : chunks.flatten.length ≤ limit
      · exact ⟨chunks, last, [], rfl, hfits, h⟩
      · obtain ⟨front, chunk, back, rfl, hfront, hchunk⟩ := ih (Nat.not_le.mp hfits)
        exact ⟨front, chunk, back ++ [last], by simp, hfront, hchunk⟩

/-- What is read of a body is what the loop over its chunks answers. -/
theorem read_eq_answer_collect (b : Body) (limit : Nat) :
    b.read limit = (b.collect limit).answer limit := by
  rw [read, size_eq_length_flatten]
  by_cases hfits : b.chunks.flatten.length ≤ limit
  · rw [if_neg (Nat.not_lt.mpr hfits), collect_of_le hfits]
    cases b.fault <;> rfl
  · have hlong := Nat.not_le.mp hfits
    obtain ⟨front, chunk, back, hchunks, hfront, hchunk⟩ := exists_overfull_chunk hlong
    obtain ⟨chunks, fault⟩ := b
    obtain rfl : chunks = front ++ chunk :: back := hchunks
    rw [if_pos hlong, collect_of_overfull hfront hchunk ⟨back, fault⟩]
    rfl

theorem read_of_le (h : b.chunks.flatten.length ≤ limit) :
    b.read limit = (b.fault.elim (.whole b.chunks.flatten) .broken : Ending).answer limit := by
  rw [read_eq_answer_collect, collect_of_le h]

theorem read_of_lt (h : limit < b.chunks.flatten.length) :
    b.read limit =
      .error (.resourceExhausted s!"request body exceeds the {limit} byte limit") := by
  obtain ⟨front, chunk, back, hchunks, hfront, hchunk⟩ := exists_overfull_chunk h
  obtain ⟨chunks, fault⟩ := b
  obtain rfl : chunks = front ++ chunk :: back := hchunks
  rw [read_eq_answer_collect, collect_of_overfull hfront hchunk ⟨back, fault⟩]
  rfl

/-- A body is read exactly if its stream comes to an end and all its bytes fit. Chunks that go past
the limit are refused with the limit, whatever the stream goes on with, because nothing behind the
first such chunk is asked for. If all chunks fit and the stream breaks off, its fault is the answer.
So where a stream that comes to an end is cut into chunks does not matter. -/
theorem read_collects (limit : Nat) :
    (∀ b : Body, b.read limit = (b.collect limit).answer limit) ∧
    (∀ (b : Body) bytes, b.read limit = .ok bytes ↔
      b.fault = none ∧ b.chunks.flatten.length ≤ limit ∧ bytes = b.chunks.flatten) ∧
    (∀ front : List Bytes, limit < front.flatten.length → ∀ rest : Body,
      read ⟨front ++ rest.chunks, rest.fault⟩ limit =
        .error (.resourceExhausted s!"request body exceeds the {limit} byte limit")) ∧
    (∀ (front : List Bytes) chunk, front.flatten.length ≤ limit →
      limit < (front ++ [chunk]).flatten.length → ∀ rest : Body,
        collect ⟨front ++ chunk :: rest.chunks, rest.fault⟩ limit = .overfull rest) ∧
    (∀ (b : Body) fault, b.chunks.flatten.length ≤ limit → b.fault = some fault →
      b.read limit = .error (.invalidArgument s!"failed to read request body: {fault}")) ∧
    ∀ b b' : Body, b.fault = none → b'.fault = none → b.chunks.flatten = b'.chunks.flatten →
      b.read limit = b'.read limit := by
  refine ⟨fun b => read_eq_answer_collect b limit, ?_, ?_,
    fun front chunk hfront hchunk rest => collect_of_overfull hfront hchunk rest, ?_, ?_⟩
  · intro b bytes
    by_cases hfits : b.chunks.flatten.length ≤ limit
    · rw [read_of_le hfits, and_iff_right hfits]
      cases b.fault with
      | none => simp [Ending.answer, eq_comm]
      | some fault => simp [Ending.answer]
    · rw [read_of_lt (Nat.not_le.mp hfits)]
      constructor
      · intro h
        cases h
      · rintro ⟨_, h, _⟩
        exact absurd h hfits
  · intro front hfront rest
    apply read_of_lt
    rw [List.flatten_append, List.length_append]
    exact Nat.lt_add_right _ hfront
  · intro b fault hfits hfault
    rw [read_of_le hfits, hfault]
    rfl
  · intro b b' hfault hfault' hbytes
    by_cases hfits : b.chunks.flatten.length ≤ limit
    · rw [read_of_le hfits, read_of_le (hbytes ▸ hfits), hfault, hfault', hbytes]
    · have hlong := Nat.not_le.mp hfits
      rw [read_of_lt hlong, read_of_lt (hbytes ▸ hlong)]

/-- Four bytes fill the room for four, whatever empty chunks come between them. The stream that
breaks off behind one byte more is refused for its length, the one that breaks off there for its
fault. -/
theorem read_brimful :
    read ⟨[[1, 2], [], [3, 4]], none⟩ 4 = .ok [1, 2, 3, 4] ∧
    read ⟨[[1, 2], [3, 4]], some "reset"⟩ 4 =
      .error (.invalidArgument "failed to read request body: reset") ∧
    read ⟨[[1, 2], [3, 4], [5], [6]], some "reset"⟩ 4 =
      .error (.resourceExhausted "request body exceeds the 4 byte limit") ∧
    collect ⟨[[1, 2], [3, 4], [5], [6]], some "reset"⟩ 4 = .overfull ⟨[[6]], some "reset"⟩ ∧
    read ⟨[[1, 2], [3, 4]], none⟩ 4 = read ⟨[[1], [], [2, 3, 4]], none⟩ 4 := by
  obtain ⟨_, hwhole, hlong, hlast, hbroken, hsame⟩ := read_collects 4
  refine ⟨?_, ?_, ?_, ?_, ?_⟩
  · exact (hwhole ⟨[[1, 2], [], [3, 4]], none⟩ _).mpr ⟨rfl, by decide, rfl⟩
  · exact hbroken ⟨[[1, 2], [3, 4]], some "reset"⟩ _ (by decide) rfl
  · exact hlong [[1, 2], [3, 4], [5]] (by decide) ⟨[[6]], some "reset"⟩
  · exact hlast [[1, 2], [3, 4]] [5] (by decide) (by decide) ⟨[[6]], some "reset"⟩
  · exact hsame ⟨[[1, 2], [3, 4]], none⟩ ⟨[[1], [], [2, 3, 4]], none⟩ rfl rfl rfl

end Body

end RestGateway
