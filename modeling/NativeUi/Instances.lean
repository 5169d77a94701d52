/-!
# Powers and orders

Powers of numbers, the order of lists and the comparison of bytes are the ones that the language
itself has, also where a module sees others.
-/
namespace NativeUi

attribute [default_instance 20000] instPowNat

attribute [scoped instance (1100)] instPowNat List.instLE List.decidableLE ByteArray.instDecidableEq

end NativeUi
