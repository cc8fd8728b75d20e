import Mathlib.Data.List.Basic

/-! The bounded tail of what an external plugin writes to its log. -/

namespace Xraytool

structure LogTail where
  limit : Nat
  data : List UInt8 := []

namespace LogTail

def newline : UInt8 := 10

def newLogTail (limit : Int) : LogTail := ⟨if limit ≤ 0 then 256 * 1024 else limit.toNat, []⟩

/-- The data after its first newline. -/
def afterNewline : List UInt8 → Option (List UInt8)
  | [] => none
  | c :: rest => if c = newline then some rest else afterNewline rest

def write (t : LogTail) (chunk : List UInt8) : LogTail :=
  if chunk = [] then t
  else
    let data := t.data ++ chunk
    let kept := data.drop (data.length - t.limit)
    { t with data := if t.limit < data.length then (afterNewline kept).getD kept else data }

end LogTail

end Xraytool
