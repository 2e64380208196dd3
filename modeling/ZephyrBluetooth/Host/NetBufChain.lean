import ZephyrBluetooth.Host.NetBuf

namespace ZephyrBluetooth.Host

open List

/-- A fragment whose data fits; its size, here without the headroom, is a
`uint16_t`. -/
structure ChainFrag extends Frag where
  fits : data.length ≤ size
  small : size < 2 ^ 16

def content (chain : List ChainFrag) : List Byte :=
  chain.flatMap fun frag => frag.data

def memcpy (dst : List Byte) (start : Nat) (bytes : List Byte) : List Byte :=
  dst.take start ++ bytes ++ dst.drop (start + bytes.length)

/-- The first loop of `net_buf_linearize`. -/
def findFrag : List ChainFrag → Nat → List ChainFrag × Nat
  | [], offset => ([], offset)
  | frag :: rest, offset =>
    if frag.data.length ≤ offset then findFrag rest (offset - frag.data.length)
    else (frag :: rest, offset)

def copyFrags : List ChainFrag → Nat → Nat → Nat → List Byte → List Byte × Nat
  | [], _, _, copied, dst => (dst, copied)
  | frag :: rest, offset, len, copied, dst =>
    if len = 0 then (dst, copied)
    else
      let toCopy := min len (frag.data.length - offset)
      copyFrags rest 0 (len - toCopy) (copied + toCopy)
        (memcpy dst copied ((frag.data.drop offset).take toCopy))

/-- The destination afterwards and the count that is returned; `dst_len` is its
length. -/
def netBufLinearize (dst : List Byte) (src : List ChainFrag) (offset len : Nat) :
    List Byte × Nat :=
  let (frags, offset) := findFrag src offset
  copyFrags frags offset (min len dst.length) 0 dst

namespace ChainFrag

def netBufAddMem (frag : ChainFrag) (mem : List Byte)
    (room : mem.length ≤ frag.tailroom) : ChainFrag :=
  { data := frag.data ++ mem
    size := frag.size
    fits := by
      have fits := frag.fits
      unfold Frag.tailroom at room
      rw [length_append]
      omega
    small := frag.small }

def fresh (size : Nat) (small : size < 2 ^ 16) : ChainFrag :=
  ⟨⟨[], size⟩, Nat.zero_le _, small⟩

end ChainFrag

/-- What an allocation returns: nothing, or a fragment with room for data. -/
abbrev Allocated : Type := Option { size : Nat // 0 < size ∧ size < 2 ^ 16 }

/-- `allocs` counts the allocations that were made. -/
structure Appended where
  chain : List ChainFrag
  addedLen : Nat
  allocs : Nat

/-- The loop of `net_buf_append_bytes`, nothing when its rounds run out. `allocate`
tells what each call of the allocator returns. -/
def appendRounds (allocate : Nat → Allocated) :
    Nat → List ChainFrag → ChainFrag → Nat → Nat → List Byte → Option Appended
  | 0, _, _, _, _, _ => none
  | rounds + 1, earlier, frag, addedLen, allocs, value =>
    let count := min value.length frag.tailroom % 2 ^ 16
    let frag := frag.netBufAddMem (value.take count)
      (Nat.le_trans (length_take_le _ _)
        (Nat.le_trans (Nat.mod_le _ _) (Nat.min_le_right _ _)))
    let value := value.drop count
    let addedLen := addedLen + count
    if value.length = 0 then some ⟨earlier ++ [frag], addedLen, allocs⟩
    else
      match allocate allocs with
      | none => some ⟨earlier ++ [frag], addedLen, allocs + 1⟩
      | some size =>
        appendRounds allocate rounds (earlier ++ [frag])
          (.fresh size.1 size.2.2) addedLen (allocs + 1) value

/-- A buffer with its fragments, of which `net_buf_frag_last` finds the last one. -/
def netBufAppendBytes (allocate : Nat → Allocated) (buf : ChainFrag)
    (frags : List ChainFrag) (value : List Byte) : Option Appended :=
  appendRounds allocate (value.length + 2) (buf :: frags).dropLast
    ((buf :: frags).getLast (cons_ne_nil _ _)) 0 0 value

theorem memcpy_written (dst written bytes : List Byte) :
    memcpy (written ++ dst.drop written.length) written.length bytes =
      (written ++ bytes) ++ dst.drop (written ++ bytes).length := by
  unfold memcpy
  rw [take_left, drop_append, drop_drop, drop_of_length_le (by omega),
    nil_append, length_append]
  congr 2
  omega

theorem content_drop {frag : ChainFrag} (rest : List ChainFrag) {offset : Nat}
    (within : offset ≤ frag.data.length) :
    (content (frag :: rest)).drop offset = frag.data.drop offset ++ content rest := by
  unfold content
  rw [flatMap_cons, drop_append_of_le_length within]

theorem findFrag_content (chain : List ChainFrag) (offset : Nat) :
    (content (findFrag chain offset).1).drop (findFrag chain offset).2 =
      (content chain).drop offset ∧ ∀ frag ∈ (findFrag chain offset).1.head?,
      (findFrag chain offset).2 ≤ frag.data.length := by
  induction chain generalizing offset with
  | nil => exact ⟨by simp [findFrag, content], nofun⟩
  | cons frag rest ih =>
    unfold findFrag
    split
    · rename_i beyond
      obtain ⟨same, within⟩ := ih (offset - frag.data.length)
      refine ⟨?_, within⟩
      rw [same]
      unfold content
      rw [flatMap_cons, drop_append, drop_of_length_le beyond, nil_append]
    · rename_i within
      refine ⟨rfl, ?_⟩
      intro first member
      cases member
      exact Nat.le_of_not_le within

theorem copyFrags_content (frags : List ChainFrag) (dst : List Byte)
    {offset len : Nat} {written : List Byte}
    (within : ∀ frag ∈ frags.head?, offset ≤ frag.data.length) :
    copyFrags frags offset len written.length
        (written ++ dst.drop written.length) =
      (written ++ ((content frags).drop offset).take len ++
        dst.drop (written ++ ((content frags).drop offset).take len).length,
        (written ++ ((content frags).drop offset).take len).length) := by
  induction frags generalizing offset len written with
  | nil => simp [copyFrags, content]
  | cons frag rest ih =>
    unfold copyFrags
    split
    · rename_i zero
      rw [zero, take_zero, append_nil]
    · have inside := within frag rfl
      have size : (frag.data.drop offset).length = frag.data.length - offset :=
        length_drop
      have copied : (frag.data.drop offset).take
          (min len (frag.data.length - offset)) =
          (frag.data.drop offset).take len := by
        rw [← size, min_comm, ← take_take]
        exact take_of_length_le (length_take_le' ..)
      have left : len - min len (frag.data.length - offset) =
          len - (frag.data.drop offset).length := by omega
      have count : written.length + min len (frag.data.length - offset) =
          (written ++ (frag.data.drop offset).take len).length := by
        rw [length_append, length_take, size]
      dsimp only
      rw [copied, count, memcpy_written, left, ih fun _ _ => Nat.zero_le _,
        content_drop rest inside, take_append, drop_zero, append_assoc written]

/-- The destination holds the bytes of the chain from the offset on, as many as
there are, were asked for and fit, and what it held before behind them. -/
theorem netBufLinearize_content (dst : List Byte) (src : List ChainFrag)
    (offset len : Nat) : netBufLinearize dst src offset len =
      (((content src).drop offset).take (min len dst.length) ++
        dst.drop (((content src).drop offset).take (min len dst.length)).length,
        (((content src).drop offset).take (min len dst.length)).length) := by
  obtain ⟨same, within⟩ := findFrag_content src offset
  have copied := @copyFrags_content _ dst _ (min len dst.length) [] within
  rw [same] at copied
  exact copied

theorem netBufLinearize_length (dst : List Byte) (src : List ChainFrag)
    (offset len : Nat) : (netBufLinearize dst src offset len).1.length = dst.length := by
  rw [netBufLinearize_content]
  simp only [length_append, length_take, length_drop]
  omega

/-- The bytes that were added are a front of the value, and the whole of it unless
an allocation from `first` on failed. -/
structure Appends (allocate : Nat → Allocated) (first : Nat)
    (before value : List Byte) (addedLen : Nat) (result : Appended) : Prop where
  content : content result.chain = before ++ value.take (result.addedLen - addedLen)
  counted : addedLen ≤ result.addedLen ∧ result.addedLen ≤ addedLen + value.length
  whole : result.addedLen = addedLen + value.length ∨
    ∃ call, first ≤ call ∧ call < result.allocs ∧ allocate call = none

theorem content_last (earlier : List ChainFrag) (frag : ChainFrag) :
    content (earlier ++ [frag]) = content earlier ++ frag.data := by
  simp [content]

theorem content_netBufAddMem (earlier : List ChainFrag) {frag : ChainFrag}
    {mem : List Byte} (room : mem.length ≤ frag.tailroom) :
    content (earlier ++ [frag.netBufAddMem mem room]) =
      content (earlier ++ [frag]) ++ mem := by
  rw [content_last, content_last, append_assoc]
  rfl

theorem content_fresh (chain : List ChainFrag) (size : Nat) (small : size < 2 ^ 16) :
    content (chain ++ [.fresh size small]) = content chain := by
  rw [content_last]
  exact append_nil _

theorem appendRounds_content (allocate : Nat → Allocated) {rounds : Nat}
    {earlier : List ChainFrag} {frag : ChainFrag} {addedLen allocs : Nat}
    {value : List Byte} (enough : value.length < rounds)
    (roomy : 0 < frag.tailroom ∨ value.length + 1 < rounds) :
    ∃ result, appendRounds allocate rounds earlier frag addedLen allocs value =
        some result ∧
      Appends allocate allocs (content (earlier ++ [frag])) value addedLen result := by
  induction rounds generalizing earlier frag addedLen allocs value with
  | zero => omega
  | succ rounds ih =>
    have small := frag.small
    have room : frag.tailroom ≤ frag.size := Nat.sub_le ..
    have count : min value.length frag.tailroom % 2 ^ 16 =
        min value.length frag.tailroom := Nat.mod_eq_of_lt (by omega)
    unfold appendRounds
    simp only [count, length_drop]
    split
    · refine ⟨_, rfl, ?_, by dsimp only; omega, .inl (by dsimp only; omega)⟩
      rw [content_netBufAddMem, Nat.add_sub_cancel_left]
    · rename_i more
      split
      · rename_i failed
        refine ⟨_, rfl, ?_, by dsimp only; omega,
          .inr ⟨allocs, Nat.le_refl _, Nat.lt_succ_self _, failed⟩⟩
        rw [content_netBufAddMem, Nat.add_sub_cancel_left]
      · rename_i size allocated
        have mem : (value.take (min value.length frag.tailroom)).length ≤
            frag.tailroom := by
          rw [length_take]
          omega
        obtain ⟨result, runs, appended⟩ := @ih
          (earlier ++ [frag.netBufAddMem _ mem]) (.fresh size.1 size.2.2)
          (addedLen + min value.length frag.tailroom) (allocs + 1)
          (value.drop (min value.length frag.tailroom))
          (by rw [length_drop]; omega) (.inl size.2.1)
        have counted := appended.counted
        rw [length_drop] at counted
        refine ⟨result, runs, ?_, by omega, ?_⟩
        · have taken : result.addedLen - addedLen = min value.length frag.tailroom +
                (result.addedLen - (addedLen + min value.length frag.tailroom)) := by
            omega
          rw [appended.content, content_fresh, content_netBufAddMem, append_assoc,
            taken, take_add]
        · rcases appended.whole with whole | ⟨call, _, made, failed⟩
          · rw [length_drop] at whole
            exact .inl (by omega)
          · exact .inr ⟨call, by omega, made, failed⟩

/-- What is copied out of a chain and appended to it is that of its byte string,
whatever the allocator returns. -/
theorem chain_bytes (dst : List Byte) (src : List ChainFrag) (offset len : Nat)
    (allocate : Nat → Allocated) (buf : ChainFrag) (frags : List ChainFrag)
    (value : List Byte) :
    (let copied := ((content src).drop offset).take (min len dst.length)
     netBufLinearize dst src offset len =
        (copied ++ dst.drop copied.length, copied.length) ∧
      (netBufLinearize dst src offset len).1.length = dst.length) ∧
    ∃ result, netBufAppendBytes allocate buf frags value = some result ∧
      content result.chain = content (buf :: frags) ++ value.take result.addedLen ∧
      result.addedLen ≤ value.length ∧
      (result.addedLen = value.length ∨
        ∃ call, call < result.allocs ∧ allocate call = none) := by
  refine ⟨⟨netBufLinearize_content dst src offset len,
    netBufLinearize_length dst src offset len⟩, ?_⟩
  obtain ⟨result, runs, appended⟩ := @appendRounds_content allocate
    (value.length + 2) (buf :: frags).dropLast
    ((buf :: frags).getLast (cons_ne_nil _ _)) 0 0 value (by omega) (.inr (by omega))
  have added := appended.content
  have counted := appended.counted
  rw [dropLast_append_getLast, Nat.sub_zero] at added
  rw [zero_add] at counted
  refine ⟨result, runs, added, counted.2, ?_⟩
  rcases appended.whole with whole | ⟨call, -, made, failed⟩
  · exact .inl (whole.trans (zero_add _))
  · exact .inr ⟨call, made, failed⟩

end ZephyrBluetooth.Host
