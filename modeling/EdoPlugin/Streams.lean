import EdoPlugin.Interaction
import Mathlib

/-!
# Byte streams

One end of a stream connection.  What the other end has sent arrives in order, but `recv` hands it
out in pieces: some of what has arrived, at most as much as was asked for, and nothing only when there
is nothing left.  A reader that wants `n` items therefore loops.  Whatever the pieces, it returns the
next `n` items and leaves the rest alone.

Nothing here names a particular protocol.
-/

namespace EdoPlugin.Interaction

/-- The calls on one end of a stream of items. -/
inductive StreamOp (α : Type) where
  | recv (most : Nat)
  | sendall (items : List α)

@[reducible] def StreamOp.Res {α : Type} : StreamOp α → Type
  | .recv _ => List α
  | .sendall _ => Unit

@[reducible] def streamEffect (α : Type) : Effect := ⟨StreamOp α, StreamOp.Res⟩

/-- One end of a connection: what it has not received yet, and what it has sent. -/
structure Endpoint (α : Type) where
  incoming : List α
  sent : List α
deriving DecidableEq, Repr

variable {α ε β : Type}

/-- A piece that `recv` may hand out, and what is left then. -/
def Piece (most : Nat) (incoming piece rest : List α) : Prop :=
  incoming = piece ++ rest ∧ piece.length ≤ most ∧ (piece = [] → incoming = [])

def streamSem : Sem (streamEffect α) (Endpoint α)
  | s, .recv most, piece, s' => Piece most s.incoming piece s'.incoming ∧ s'.sent = s.sent
  | s, .sendall items, _, s' => s' = { s with sent := s.sent ++ items }

def recv (most : Nat) : Prog (streamEffect α) ε (List α) :=
  @Prog.perform (streamEffect α) ε (.recv most)

def sendall (items : List α) : Prog (streamEffect α) ε Unit :=
  @Prog.perform (streamEffect α) ε (.sendall items)

/-- Receive until there are `n` items, of which `buf` are here; `eof` is raised when no more come.
    Each piece is non-empty, so the loop ends. -/
def recvExactly (eof : ε) (n : Nat) (buf : List α) : Prog (streamEffect α) ε (List α) :=
  if _ : buf.length < n then
    .call (.recv (n - buf.length)) fun (piece : List α) =>
      if _ : piece = [] then .raise eof else recvExactly eof n (buf ++ piece)
  else .ret buf
termination_by n - buf.length
decreasing_by
  have hpos := List.length_pos_iff.mpr ‹¬ piece = []›
  simp only [List.length_append]
  omega

/-- The calls that get an answer: nobody asks for nothing. -/
def answeredCall : StreamOp α → Prop
  | .recv most => 0 < most
  | .sendall _ => True

theorem callsOnly_recvExactly {eof : ε} {n : Nat} {buf : List α} :
    CallsOnly (E := streamEffect α) answeredCall (recvExactly eof n buf) := by
  induction hleft : n - buf.length using Nat.strongRecOn generalizing buf with
  | ind left ih =>
    unfold recvExactly
    split
    · rename_i hmore
      refine .call (Nat.sub_pos_of_lt hmore) fun piece => ?_
      split
      · exact .raise
      · rename_i hempty
        refine ih _ ?_ rfl
        have hpos := List.length_pos_iff.mpr hempty
        simp only [List.length_append]
        omega
    · exact .ret

theorem exists_recv (s : Endpoint α) {most : Nat} (hmost : 0 < most) :
    ∃ piece s', streamSem s (.recv most) piece s' := by
  cases hincoming : s.incoming with
  | nil => exact ⟨[], s, ⟨by simp [hincoming], Nat.zero_le _, fun _ => hincoming⟩, rfl⟩
  | cons item rest =>
    exact ⟨[item], { s with incoming := rest }, ⟨hincoming, hmost, fun h => nomatch h⟩, rfl⟩

theorem exists_streamSem (s : Endpoint α) (op : StreamOp α) (hop : answeredCall op) :
    ∃ res s', streamSem s op res s' := by
  cases op with
  | recv most => exact exists_recv s hop
  | sendall items => exact ⟨(), _, rfl⟩

/-- The environment hands out pieces of what is incoming, whatever it does with what is sent. -/
def HandsOutPieces (sem : Sem (streamEffect α) (Endpoint α)) : Prop :=
  ∀ s most piece s', sem s (.recv most) piece s' → streamSem s (.recv most) piece s'

theorem handsOutPieces_streamSem : HandsOutPieces (@streamSem α) := fun _ _ _ _ h => h

/-- **The reader returns exactly the next items**, however they are cut. -/
theorem wp_recvExactly {sem : Sem (streamEffect α) (Endpoint α)} (hsem : HandsOutPieces sem)
    {eof : ε} {n : Nat} {buf items rest : List α} {s : Endpoint α}
    (hlength : buf.length + items.length = n) (hincoming : s.incoming = items ++ rest) :
    wp sem (fun _ _ => True) (recvExactly eof n buf)
      (fun out s' => out = .ok (buf ++ items) ∧ s' = { s with incoming := rest }) s := by
  induction hleft : items.length using Nat.strongRecOn generalizing buf items s with
  | ind left ih =>
    unfold recvExactly
    split
    · rename_i hmore
      refine ⟨trivial, ?_⟩
      intro piece s' hrecv
      obtain ⟨⟨hcut, hmost, hnonempty⟩, hsent⟩ := hsem _ _ _ _ hrecv
      have hsplit : ∃ items', items = piece ++ items' ∧ s'.incoming = items' ++ rest := by
        rw [hincoming] at hcut
        rcases List.append_eq_append_iff.mp hcut with ⟨more, hpiece, hrest⟩ | ⟨items', hitems, hrest⟩
        · have hnil : more = [] := by
            apply List.length_eq_zero_iff.mp
            have hlen := congrArg List.length hpiece
            simp only [List.length_append] at hlen
            omega
          subst hnil
          exact ⟨[], by simpa using hpiece.symm, by simpa using hrest.symm⟩
        · exact ⟨items', hitems, hrest⟩
      obtain ⟨items', rfl, hrest⟩ := hsplit
      have hpiece : piece ≠ [] := by
        rintro rfl
        have hnil := hnonempty rfl
        rw [hincoming] at hnil
        simp only [List.nil_append, List.append_eq_nil_iff] at hnil
        simp only [hnil.1, List.nil_append, List.length_nil] at hlength
        omega
      dsimp only
      rw [dif_neg hpiece]
      have hpos := List.length_pos_iff.mpr hpiece
      simp only [List.length_append] at hlength hleft
      refine wp_mono (ih items'.length (by omega) ?_ hrest rfl) ?_
      · simp only [List.length_append]
        omega
      · rintro out s'' ⟨rfl, rfl⟩
        refine ⟨by rw [List.append_assoc], ?_⟩
        rw [← hsent]
    · rename_i hdone
      have hnil : items = [] := List.length_eq_zero_iff.mp (by omega)
      subst hnil
      refine ⟨by rw [List.append_nil], ?_⟩
      rw [show rest = s.incoming by simpa using hincoming.symm]

/-- A read that succeeds has taken exactly its items off the stream. -/
theorem wp_recvExactly_took {eof : ε} {n : Nat} {buf : List α} {s : Endpoint α} :
    wp streamSem (fun _ _ => True) (recvExactly eof n buf)
      (fun out s' => ∀ got, out = .ok got → ∃ items, got = buf ++ items ∧ n ≤ got.length ∧
        (buf.length ≤ n → got.length = n) ∧ s.incoming = items ++ s'.incoming) s := by
  induction hleft : n - buf.length using Nat.strongRecOn generalizing buf s with
  | ind left ih =>
    unfold recvExactly
    split
    · rename_i hmore
      refine ⟨trivial, ?_⟩
      rintro piece s₁ ⟨⟨hcut, hmost, -⟩, -⟩
      dsimp only
      split
      · rintro got hgot
        cases hgot
      · rename_i hempty
        have hpos := List.length_pos_iff.mpr hempty
        have hlength : (buf ++ piece).length = buf.length + piece.length := List.length_append
        apply wp_mono (ih (n - (buf ++ piece).length) (by omega) rfl)
        intro out s₂ hout got hgot
        obtain ⟨items, hitems, hlow, hexact, hincoming⟩ := hout got hgot
        refine ⟨piece ++ items, ?_, hlow, fun _ => hexact (by omega), ?_⟩
        · rw [hitems, List.append_assoc]
        · rw [hcut, hincoming, List.append_assoc]
    · rename_i hdone
      rintro got hgot
      cases hgot
      exact ⟨[], (List.append_nil _).symm, Nat.not_lt.mp hdone,
        fun hle => le_antisymm hle (Nat.not_lt.mp hdone), rfl⟩

/-- What has arrived can be read. -/
theorem ends_recvExactly {eof : ε} {n : Nat} {items rest : List α} {s : Endpoint α}
    (hlength : items.length = n) (hincoming : s.incoming = items ++ rest) :
    Ends streamSem (recvExactly eof n []) s (.ok items) { s with incoming := rest } := by
  obtain ⟨out, s', hends⟩ :=
    callsOnly_recvExactly.exists_ends exists_streamSem (p := recvExactly eof n []) s
  have hread := hends.of_wp (wp_recvExactly handsOutPieces_streamSem
    (show ([] : List α).length + items.length = n by simpa using hlength) hincoming)
  rw [List.nil_append] at hread
  obtain ⟨rfl, rfl⟩ := hread
  exact hends

/-- `struct.pack(">I", n)` of a number below `2 ^ 32`. -/
def packWord (n : Nat) : List UInt8 :=
  [UInt8.ofNat (n / 2 ^ 24), UInt8.ofNat (n / 2 ^ 16), UInt8.ofNat (n / 2 ^ 8), UInt8.ofNat n]

/-- `struct.unpack(">I", bytes)` of four bytes. -/
def unpackWord (bytes : List UInt8) : Nat := bytes.foldl (fun n byte => n * 2 ^ 8 + byte.toNat) 0

@[simp] theorem length_packWord (n : Nat) : (packWord n).length = 4 := rfl

theorem unpackWord_packWord {n : Nat} (h : n < 2 ^ 32) : unpackWord (packWord n) = n := by
  simp only [unpackWord, packWord, List.foldl_cons, List.foldl_nil, UInt8.toNat_ofNat']
  omega

end EdoPlugin.Interaction
