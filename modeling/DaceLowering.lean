import DaceLowering.Graph
import DaceLowering.Scope
import DaceLowering.Dominators
import DaceLowering.Lifetime
import DaceLowering.Climb
import DaceLowering.Termination
import DaceLowering.ExternalMemory
import DaceLowering.ScheduleTree
import DaceLowering.Cleanup
import DaceLowering.FileHeader
import DaceLowering.TreeText
import DaceLowering.Allocation
import DaceLowering.InterstateSymbols
import DaceLowering.SymbolsAndConstants
