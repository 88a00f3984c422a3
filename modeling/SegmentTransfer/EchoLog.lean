import SegmentTransfer.EchoReplies

/-! # What the UDP server prints

The server prints the line it received and then what longer ones left in its
array, or what the array held before.
-/

namespace SegmentTransfer

open Bytes Outcome Udp

variable {α : Type} [DecidableEq α]

namespace EchoServer

/-- What the array holds and what was printed, as far as no zero was received. -/
structure Logged (v : EchoServer) : Prop where
  lengths : v.printed.length = v.heard.length
  left : (∀ m ∈ v.heard, 0 ∉ m) → ∀ i, v.buf.bytes[i]? = some 0 ↔
    (∀ m ∈ v.heard, m.length ≤ i) ∧ v.memory.bytes[i]? = some 0
  lines : (∀ m ∈ v.heard, 0 ∉ m) → ∀ k m, v.heard[k]? = some m →
    (v.printed[k]? = some m ↔
      (∀ x ∈ v.heard.take k, x.length ≤ m.length) ∧ v.memory.bytes[m.length]? = some 0)

theorem Logged.start (memory : Buf 512) : Logged ⟨memory, memory, [], []⟩ where
  lengths := rfl
  left := by simp
  lines := by simp

theorem fill_zero (buf : Buf 512) {m : List UInt8} (none : 0 ∉ m) (fits : m.length ≤ 512) (i : Nat) :
    (buf.fill m).bytes[i]? = some 0 ↔ m.length ≤ i ∧ buf.bytes[i]? = some 0 := by
  rw [Buf.fill_bytes buf fits]
  by_cases inside : i < m.length
  · rw [List.getElem?_append_left inside]
    constructor
    · exact fun zero => (none (List.mem_of_getElem? zero)).elim
    · exact fun behind => by omega
  · rw [List.getElem?_append_right (by omega), List.getElem?_drop, Nat.add_sub_of_le (by omega)]
    simp only [Nat.not_lt.mp inside, true_and]

/-- What one more datagram does to the array and to the lines printed. -/
theorem Logged.next {v : EchoServer} (logged : v.Logged) {m text : List UInt8}
    (fits : m.length ≤ 512) (found : cString (v.buf.fill m).bytes = some text) :
    Logged
      { v with buf := v.buf.fill m, heard := v.heard ++ [m], printed := v.printed ++ [text] } where
  lengths := by simp [logged.lengths]
  left := by
    intro none i
    have none' : 0 ∉ m := none m (by simp)
    have before := logged.left (fun x member => none x (List.mem_append_left _ member)) i
    simp only [fill_zero v.buf none' fits, before, List.mem_append, List.mem_singleton]
    constructor
    · rintro ⟨short, shorter, zero⟩
      refine ⟨fun x member => ?_, zero⟩
      rcases member with old | rfl
      · exact shorter x old
      · exact short
    · rintro ⟨shorter, zero⟩
      exact ⟨shorter m (.inr rfl), fun x member => shorter x (.inl member), zero⟩
  lines := by
    intro none k x there
    have none' : 0 ∉ m := none m (by simp)
    have older : ∀ y ∈ v.heard, 0 ∉ y := fun y member => none y (List.mem_append_left _ member)
    by_cases last : k < v.heard.length
    · rw [List.getElem?_append_left last] at there
      rw [List.getElem?_append_left (logged.lengths ▸ last), List.take_append_of_le_length
        (Nat.le_of_lt last)]
      exact logged.lines older k x there
    · have is : k = v.heard.length := by
        have inside := (List.getElem?_eq_some_iff.mp there).1
        rw [List.length_append, List.length_singleton] at inside
        omega
      subst is
      rw [List.getElem?_append_right (Nat.le_refl _), Nat.sub_self] at there
      cases there
      rw [← logged.lengths, List.getElem?_append_right (Nat.le_refl _), Nat.sub_self,
        logged.lengths, List.take_left]
      have whole := (Buf.cString_fill v.buf none' fits).trans (logged.left older m.length)
      rw [found] at whole
      exact whole

end EchoServer

theorem Echo.enter_server {s s' : Echo α} {a : α} {line : Option (List UInt8)}
    (next : s.enter a line = .ok s') : s'.server = s.server := by
  unfold Echo.enter at next
  split at next
  · cases next
    rfl
  · split at next
    · cases next
      rfl
    · obtain ⟨message, -, next⟩ := bind_eq_ok.mp next
      obtain ⟨text, -, next⟩ := bind_eq_ok.mp next
      cases next
      rfl

theorem Echo.receive_server {s s' : Echo α} {a : α} (next : s.receive a = .ok s') :
    s'.server = s.server := by
  unfold Echo.receive at next
  split at next
  · split at next
    · obtain ⟨text, -, next⟩ := bind_eq_ok.mp next
      cases next
      rfl
    · cases next
      rfl
  · cases next
    rfl

theorem fill_take (buf : Buf 512) (d : List UInt8) : buf.fill (d.take 512) = buf.fill d := by
  apply Buf.ext_bytes
  have size := buf.size
  simp only [Buf.fill, List.take_take, Nat.min_self, List.length_take]
  by_cases fits : d.length ≤ 512
  · rw [Nat.min_eq_right fits]
  · rw [List.drop_eq_nil_of_le (by omega), List.drop_eq_nil_of_le (by omega)]

theorem Echo.logged_of_reachable {server : α} {s : Echo α} (reach : (echo server).Reachable s) :
    ∀ v, s.server = some v → v.Logged := by
  apply reach.induct
  · rintro s rfl v there
    cases there
  · intro s event s' logged next v there
    cases event with
    | serve memory =>
        cases next
        unfold Echo.serve at there
        split at there
        · exact logged v there
        · cases there
          exact .start memory
    | start a memory =>
        cases next
        unfold Echo.start at there
        split at there <;> exact logged v there
    | enter a line => exact logged v (Echo.enter_server next ▸ there)
    | receive a => exact logged v (Echo.receive_server next ▸ there)
    | answer =>
        have next : s.answer server = .ok s' := next
        unfold Echo.answer at next
        split at next
        · rename_i w d here first
          obtain ⟨text, found, next⟩ := bind_eq_ok.mp next
          cases next
          cases there
          rw [Echo.reply_eq, ← fill_take w.buf d.bytes]
          rw [← fill_take w.buf d.bytes] at found
          exact (logged w here).next (List.length_take_le _ _) (orFail_eq_ok.mp found)
        · cases next
          exact logged v there
    | deliver i | lose i | foreign d =>
        cases next
        exact logged v there

section

variable {server : α} {s : Echo α} {v : EchoServer}

/-- Whatever happens: of datagrams without a zero the server prints the bytes themselves if and only
    if none before was longer, and the array had a zero there at first. -/
theorem echo_log (reach : (echo server).Reachable s) (running : s.server = some v)
    (texts : ∀ m ∈ v.heard, 0 ∉ m) :
    v.printed.length = v.heard.length ∧
      ∀ k m, v.heard[k]? = some m →
        (v.printed[k]? = some m ↔
          (∀ x ∈ v.heard.take k, x.length ≤ m.length) ∧ v.memory.bytes[m.length]? = some 0) := by
  have logged := Echo.logged_of_reachable reach v running
  exact ⟨logged.lengths, logged.lines texts⟩

/-- Behind a shorter line stands the end of the longer one before. -/
theorem echo_log_sample : ∃ (s : Echo Nat) (v : EchoServer), (echo 0).Reachable s ∧
    s.server = some v ∧ v.heard = [[65, 66], [67]] ∧ v.printed = [[65, 66], [67, 66]] ∧
    ¬ v.printed[1]? = some [67] := by
  have next : ∀ {s t : Echo Nat} (event : EchoEvent Nat), (echo 0).Reachable s →
      s.step 0 event = .ok t → (echo 0).Reachable t := fun _ reach step => reach.step step
  have served := next (.serve (.replicate 512 0)) (.of_init rfl) rfl
  have first := next .answer (next (.deliver 0) (next (.foreign ⟨1, 0, [65, 66]⟩) served rfl) rfl) rfl
  have second := next .answer (next (.deliver 1) (next (.foreign ⟨1, 0, [67]⟩) first rfl) rfl) rfl
  have logged := echo_log second rfl (by decide)
  refine ⟨_, _, second, rfl, rfl, rfl, fun same => ?_⟩
  have longer := ((logged.2 1 [67] rfl).mp same).1 [65, 66] (.head _)
  exact absurd longer (by decide)

end

end SegmentTransfer
