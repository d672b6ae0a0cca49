/-! Bounds of whole numbers with a fixed number of bits. -/
namespace TopicLoad
namespace Limits

def bits31 : Nat := 0x80000000

def bits32 : Nat := 0x100000000

def bits63 : Nat := 0x8000000000000000

def bits64 : Nat := 0x10000000000000000

def bits127 : Nat := 0x80000000000000000000000000000000

def bits128 : Nat := 0x100000000000000000000000000000000

end Limits
end TopicLoad
