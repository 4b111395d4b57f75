import RpcWire.Proofs.Numbers
import RpcWire.Proofs.Steps
import RpcWire.Transport

/-! Frames on a stream: however the stream delivers its octets, a reader between frames goes on to the next one that
has octets, over the empty ones. -/
namespace RpcWire

namespace Stream

/-- A read of a stream with octets left takes some of them from the front. -/
theorem read_front {n : Nat} {stream : Stream} (hn : 0 < n) (h : stream.unread ≠ []) :
    ∃ got rest, got ≠ [] ∧ got.length ≤ n ∧ stream.unread = got ++ rest ∧
      read n stream = .ok got { stream with unread := rest } := by
  have hs : 0 < stream.readSize n ∧ stream.readSize n ≤ n := by
    unfold readSize
    split <;> omega
  refine ⟨stream.unread.take (stream.readSize n), stream.unread.drop (stream.readSize n), ?_, ?_,
    (List.take_append_drop _ _).symm, ?_⟩
  · simp only [ne_eq, List.take_eq_nil_iff, h, or_false]
    omega
  · rw [List.length_take]
    omega
  · unfold read
    split
    · next he _ => exact absurd he h
    · rfl

/-- However a stream delivers its octets, as many as are asked for come if they are there. -/
theorem readFull_front {n : Nat} {stream : Stream} (h : n ≤ stream.unread.length) :
    readFull n stream = .ok (stream.unread.take n) { stream with unread := stream.unread.drop n } := by
  induction n using Nat.strongRecOn generalizing stream with
  | ind n ih =>
    rw [readFull]
    split
    · next hz => subst hz; simp
    · next hz =>
      have hne : stream.unread ≠ [] := by
        rw [← List.length_pos_iff]
        omega
      obtain ⟨got, rest, hg, hlen, he, hr⟩ := read_front (by omega : 0 < n) hne
      rw [hr]
      obtain ⟨first, more, rfl⟩ := List.exists_cons_of_ne_nil hg
      have hlen' : n - (first :: more).length ≤ rest.length := by
        rw [he, List.length_append] at h
        omega
      simp only
      rw [ih _ (by simp; omega) hlen', he]
      have htake : ((first :: more) ++ rest).take n =
          (first :: more) ++ rest.take (n - (first :: more).length) := by
        rw [List.take_append, List.take_of_length_le hlen]
      have hdrop : ((first :: more) ++ rest).drop n = rest.drop (n - (first :: more).length) := by
        rw [List.drop_append, List.drop_of_length_le hlen, List.nil_append]
      rw [htake, hdrop]

theorem readLength_front {size : Nat} {rest : Bytes} {stream : Stream} (hsize : size < 2 ^ 32)
    (h : stream.unread = Bytes.bigEndian 4 size ++ rest) :
    readLength stream = .ok (some (UInt32.ofNat size)) { stream with unread := rest } := by
  have hlen : (Bytes.bigEndian 4 size).length = 4 := Bytes.length_bigEndian 4 size
  have hfull : readFull 4 stream = .ok (Bytes.bigEndian 4 size) { stream with unread := rest } := by
    rw [readFull_front (by rw [h, List.length_append, hlen]; omega), h, List.take_left' hlen, List.drop_left' hlen]
  have hne : Bytes.bigEndian 4 size ≠ [] := by
    rw [← List.length_pos_iff, hlen]
    decide
  rw [readLength, bind_of_ok hfull, if_neg hne, hlen, Bytes.toNat_bigEndian_of_lt (by exact hsize)]
  rfl

theorem read_end {n : Nat} {stream : Stream} (h : stream.unread = []) (hend : stream.ending = none) :
    read n stream = .ok [] stream := by
  cases stream
  simp only at h hend
  simp [read, h, hend]

/-- At the end of the stream, no length is read. -/
theorem readLength_end {stream : Stream} (h : stream.unread = []) (hend : stream.ending = none) :
    readLength stream = .ok none stream := by
  have hfull : readFull 4 stream = .ok [] stream := by
    rw [readFull, if_neg (by decide), read_end h hend]
  rw [readLength, bind_of_ok hfull]
  rfl

end Stream

namespace Framed

/-- Between frames, a length that can be read is one of the next frame. -/
theorem await_head {size : Nat} {rest : Bytes} {layer : Framed} (hremaining : layer.remaining = 0)
    (h : layer.stream.unread = Bytes.bigEndian 4 size ++ rest) (hle : size ≤ layer.maxSize.toNat) :
    await layer = await { layer with stream := { layer.stream with unread := rest }, remaining := size } := by
  have hlt : size < 2 ^ 32 := Nat.lt_of_le_of_lt hle layer.maxSize.toNat_lt
  have hword : (UInt32.ofNat size).toNat = size := UInt32.toNat_ofNat_of_lt' hlt
  have hread := Stream.readLength_front hlt h
  have hsmall : ¬layer.maxSize < UInt32.ofNat size := by
    rw [UInt32.lt_iff_toNat_lt, hword]
    omega
  conv => lhs; rw [await]
  rw [if_neg (by simpa using hremaining)]
  split
  · next he => rw [hread] at he; cases he
  · next he => rw [hread] at he; cases he
  · next he =>
    rw [hread] at he
    cases he
    rw [if_neg hsmall, hword]

/-- Between frames, the next frame is entered, be it empty. -/
theorem await_frame {payload later : Bytes} {layer : Framed} (hremaining : layer.remaining = 0)
    (h : layer.stream.unread = encode payload ++ later) (hle : payload.length ≤ layer.maxSize.toNat) :
    await layer = await { layer with
      stream := { layer.stream with unread := payload ++ later }, remaining := payload.length } := by
  rw [encode, List.append_assoc] at h
  exact await_head hremaining h hle

/-- Empty frames are passed over. -/
theorem await_over {frames : List Bytes} {later : Bytes} {layer : Framed} (hnone : frames.flatten = [])
    (hremaining : layer.remaining = 0) (h : layer.stream.unread = frames.flatMap encode ++ later) :
    await layer = await { layer with stream := { layer.stream with unread := later } } := by
  induction frames generalizing layer with
  | nil =>
    rw [List.flatMap_nil, List.nil_append] at h
    have hsame : { layer.stream with unread := later } = layer.stream := by rw [← h]
    rw [hsame]
  | cons frame rest ih =>
    rw [List.flatten_cons, List.append_eq_nil_iff] at hnone
    obtain ⟨rfl, hrest⟩ := hnone
    rw [List.flatMap_cons, List.append_assoc] at h
    have hothers := @ih { layer with
      stream := { layer.stream with unread := rest.flatMap encode ++ later }, remaining := 0 } hrest rfl rfl
    rw [hremaining]
    exact (await_frame hremaining h (Nat.zero_le _)).trans hothers

/-- Between frames, the next one that has octets is entered. -/
theorem await_frames {frames : List Bytes} {later : Bytes} {layer : Framed} (hremaining : layer.remaining = 0)
    (h : layer.stream.unread = frames.flatMap encode ++ later)
    (hfit : ∀ frame ∈ frames, frame.length ≤ layer.maxSize.toNat) (hmore : frames.flatten ≠ []) :
    ∃ (frame : Bytes) (rest : List Bytes), frame ≠ [] ∧ frame ++ rest.flatten = frames.flatten ∧
      (∀ frame ∈ rest, frame.length ≤ layer.maxSize.toNat) ∧
      await layer = .ok true { layer with
        stream := { layer.stream with unread := frame ++ (rest.flatMap encode ++ later) }
        remaining := frame.length } := by
  induction frames generalizing layer with
  | nil => exact absurd rfl hmore
  | cons frame rest ih =>
    obtain ⟨hfirst, hothers⟩ := List.forall_mem_cons.mp hfit
    rw [List.flatMap_cons, List.append_assoc] at h
    have hawait := await_frame hremaining h hfirst
    by_cases hempty : frame = []
    · subst hempty
      obtain ⟨next, others, hnext, hall, hfit', hawait'⟩ :=
        @ih { layer with stream := { layer.stream with unread := rest.flatMap encode ++ later }, remaining := 0 }
          rfl rfl hothers hmore
      exact ⟨next, others, hnext, hall, hfit', hawait.trans hawait'⟩
    · refine ⟨frame, rest, hempty, rfl, hothers, ?_⟩
      rw [hawait, await, if_pos]
      simpa using hempty

/-- Where only empty frames follow, the end of the stream is a clean one. -/
theorem await_end {frames : List Bytes} {layer : Framed} (hremaining : layer.remaining = 0)
    (h : layer.stream.unread = frames.flatMap encode) (hnone : frames.flatten = [])
    (hend : layer.stream.ending = none) :
    await layer = .ok false { layer with stream := { layer.stream with unread := [] } } := by
  induction frames generalizing layer with
  | nil =>
    have hnil : layer.stream.unread = [] := h
    have hread := Stream.readLength_end hnil hend
    have hsame : { layer.stream with unread := [] } = layer.stream := by rw [← hnil]
    rw [await, if_neg (by simpa using hremaining), hsame]
    split
    · next he => rw [hread] at he; cases he
    · next he => rw [hread] at he; cases he; rfl
    · next he => rw [hread] at he; cases he
  | cons frame rest ih =>
    rw [List.flatten_cons, List.append_eq_nil_iff] at hnone
    obtain ⟨rfl, hrest⟩ := hnone
    have hawait := await_frame hremaining h (Nat.zero_le _)
    have hothers := @ih { layer with stream := { layer.stream with unread := rest.flatMap encode }, remaining := 0 }
      rfl rfl hrest hend
    rw [hremaining]
    exact hawait.trans hothers

/-- A read between frames is a read of the frame that is entered. -/
theorem read_of_await {n : Nat} (hn : n ≠ 0) {layer entered : Framed} (h : await layer = .ok true entered)
    (hmore : entered.remaining ≠ 0) : read n layer = read n entered := by
  have hsame : await entered = .ok true entered := by rw [await, if_pos hmore]
  rw [read, if_neg hn, bind_of_ok h, bind_of_ok hsame]

/-- Where only empty frames follow, a read finds the end of the stream. -/
theorem read_end {n : Nat} (hn : n ≠ 0) {frames : List Bytes} {layer : Framed} (hremaining : layer.remaining = 0)
    (h : layer.stream.unread = frames.flatMap encode) (hnone : frames.flatten = [])
    (hend : layer.stream.ending = none) :
    read n layer = .ok [] { layer with stream := { layer.stream with unread := [] } } := by
  rw [read, if_neg hn, bind_of_ok (await_end hremaining h hnone hend)]
  rfl

/-- Frames are longer than what they carry. -/
theorem length_flatten_le (frames : List Bytes) : frames.flatten.length ≤ (frames.flatMap encode).length := by
  induction frames with
  | nil => exact Nat.le_refl 0
  | cons frame rest ih =>
    simp only [List.flatten_cons, List.flatMap_cons, List.length_append, encode]
    omega

end Framed
end RpcWire
