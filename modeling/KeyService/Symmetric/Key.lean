import KeyService.Program
import KeyService.Symmetric.Algorithm

/-! New symmetric keys. -/
namespace KeyService.Symmetric

def drawKey (bits : UInt16) : ExceptT Error Program Bytes := do
  let size ← liftM (KeySize.ofBits bits)
  Program.draw size.bytes

end KeyService.Symmetric
