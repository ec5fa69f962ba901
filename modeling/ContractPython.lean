import ContractPython.Lib.SortedMap
import ContractPython.Model.Compiler
import ContractPython.Model.Library
import ContractPython.Proofs.Addresses
import ContractPython.Proofs.Allocator
import ContractPython.Proofs.Arithmetic
import ContractPython.Proofs.Atomicity
import ContractPython.Proofs.AugAssign
import ContractPython.Proofs.Calldata
import ContractPython.Proofs.Chains
import ContractPython.Proofs.Comparison
import ContractPython.Proofs.Composition
import ContractPython.Proofs.Comprehensions
import ContractPython.Proofs.Determinism
import ContractPython.Proofs.Displays
import ContractPython.Proofs.Division
import ContractPython.Proofs.Effects
import ContractPython.Proofs.Funds
import ContractPython.Proofs.Gas
import ContractPython.Proofs.GasPrice
import ContractPython.Proofs.Generator
import ContractPython.Proofs.GlobalTag
import ContractPython.Proofs.Imports
import ContractPython.Proofs.Injectivity
import ContractPython.Proofs.Isolation
import ContractPython.Proofs.Iteration
import ContractPython.Proofs.Parameters
import ContractPython.Proofs.Payments
import ContractPython.Proofs.Persistence
import ContractPython.Proofs.Printing
import ContractPython.Proofs.Ranges
import ContractPython.Proofs.Results
import ContractPython.Proofs.Reuse
import ContractPython.Proofs.Serialization
import ContractPython.Proofs.Session
import ContractPython.Proofs.Skip
import ContractPython.Proofs.StepLimit
import ContractPython.Proofs.Streams
import ContractPython.Proofs.StringReader
import ContractPython.Proofs.Termination
import ContractPython.Proofs.TopLevel
import ContractPython.Proofs.Truth
import ContractPython.Proofs.Updates
import ContractPython.Trees.Programs
import ContractPython.Proofs.AddressCodec
import ContractPython.Proofs.AddressDistance
