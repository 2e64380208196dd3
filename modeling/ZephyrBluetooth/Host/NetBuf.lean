import ZephyrBluetooth.Host.Bytes

namespace ZephyrBluetooth.Host

open List

/-! The buffers of `buf.c`: a chain of fragments, with a record of every
`net_buf_add` made while it was filled. -/

structure Frag where
  data : List Byte
  size : Nat

def Frag.tailroom (frag : Frag) : Nat :=
  frag.size - frag.data.length

structure NetAdd where
  size : Nat
  tailroom : Nat

structure NetBuf where
  earlier : List Frag
  last : Frag
  adds : List NetAdd

variable {buf : NetBuf}

namespace NetBuf

def alloc (size : Nat) : NetBuf :=
  ⟨[], ⟨[], size⟩, []⟩

def head (buf : NetBuf) : Frag :=
  buf.earlier.headD buf.last

def setHead (buf : NetBuf) (frag : Frag) : NetBuf :=
  match buf.earlier with
  | [] => { buf with last := frag }
  | _ :: rest => { buf with earlier := frag :: rest }

def fragsLen (buf : NetBuf) : Nat :=
  (buf.earlier.map fun frag => frag.data.length).sum + buf.last.data.length

def bytes (buf : NetBuf) : List Byte :=
  buf.earlier.flatMap Frag.data ++ buf.last.data

/-- `net_buf_add` on the buffer itself, with what is then written there. -/
def addHead (buf : NetBuf) (bytes : List Byte) : NetBuf :=
  { buf.setHead { buf.head with data := buf.head.data ++ bytes } with
    adds := buf.adds ++ [⟨bytes.length, buf.head.tailroom⟩] }

/-- `net_buf_add` on the last fragment. -/
def addLast (buf : NetBuf) (bytes : List Byte) : NetBuf :=
  { buf with
    last := { buf.last with data := buf.last.data ++ bytes }
    adds := buf.adds ++ [⟨bytes.length, buf.last.tailroom⟩] }

def fragAdd (buf : NetBuf) (size : Nat) : NetBuf :=
  { buf with
    earlier := buf.earlier ++ [buf.last]
    last := ⟨[], size⟩ }

@[simp] theorem addLast_fragsLen (buf : NetBuf) (bytes : List Byte) :
    (buf.addLast bytes).fragsLen = buf.fragsLen + bytes.length := by
  simp only [fragsLen, addLast, length_append]
  omega

@[simp] theorem fragAdd_fragsLen (buf : NetBuf) (size : Nat) :
    (buf.fragAdd size).fragsLen = buf.fragsLen := by
  simp [fragsLen, fragAdd]

end NetBuf

end ZephyrBluetooth.Host
